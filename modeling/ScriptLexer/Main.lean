import ScriptLexer.Command.Session

/-!
# The program

The outer layer of a run: it looks up the paths that the arguments lead to, takes the input, and
carries out the outcome.
-/

namespace ScriptLexer.Program

/-- An error of the system. -/
def fileError : IO.Error → FileError
  | .noFileOrDirectory .. => .notFound
  | .inappropriateType _ 21 _ => .isFolder
  | .inappropriateType .. => .notFolder
  | .invalidArgument _ 36 _ => .nameTooLong
  | .resourceExhausted _ 28 _ => .noSpace
  | .permissionDenied _ code words | .resourceVanished code words | .otherError code words =>
    .other (words ++ " (os error " ++ toString code ++ ")")
  | error => .other error.toString

/-- What a path leads to. -/
def lookUp (path : String) : IO (String × Except FileError ByteArray) := do
  if path.toList.contains '\x00' then return (path, .error .nulInName)
  try
    return (path, .ok (← IO.FS.readBinFile path))
  catch error =>
    return (path, .error (fileError error))

/-- All bytes of a stream. -/
partial def readAll (stream : IO.FS.Stream) (taken : ByteArray) : IO ByteArray := do
  let bytes ← stream.read 65536
  if bytes.isEmpty then return taken else readAll stream (taken ++ bytes)

/-- The disk and the input that a request needs. -/
def gather : Request → IO (Disk × ByteArray)
  | .run a => do
    let disk := Disk.ofContents (← a.paths.mapM lookUp)
    let input ← if a.script?.isSome then pure ByteArray.empty
      else readAll (← IO.getStdin) ByteArray.empty
    return (disk, input)
  | _ => return (Disk.ofContents [], ByteArray.empty)

/-- The folder for the data of the user, if the environment tells one. -/
def dataFolder : IO (Option String) := do
  let given := (← IO.getEnv "XDG_DATA_HOME").filter (·.startsWith "/")
  let home := (← IO.getEnv "HOME").filter (· ≠ "")
  return given.or (home.map (· ++ "/.local/share"))

/-- Make the folder of the history; it may fail. -/
def makeHistoryFolder : IO Unit := do
  try
    IO.FS.createDirAll (historyFolder (← dataFolder))
  catch _ =>
    return

/-- Write lines to the output one by one. If one is refused, the answer tells how many characters
were taken before it, and why. -/
def write : List String → (taken : Nat) → IO (Option (Nat × FileError))
  | [], _ => return none
  | line :: more, taken => do
    let output ← IO.getStdout
    let refused? ← try
        output.putStr line
        output.flush
        pure none
      catch error =>
        pure (some (fileError error))
    match refused? with
    | some error => return some (taken, error)
    | none => write more (taken + line.length)

/-- The lines of a text, each with its line feed. -/
def linesOf (text : String) : List String :=
  match (text.splitOn "\n").reverse with
  | [] => []
  | last :: closed => closed.reverse.map (· ++ "\n") ++ [last]

/-- The last number below another that passes a test, where the first does and no number that fails
stands in front of one that passes. -/
def lastPassing (test : Nat → Bool) (first high : Nat) : Nat :=
  if high ≤ first + 1 then first
  else
    let middle := (first + high) / 2
    if test middle then lastPassing test middle high else lastPassing test first middle
termination_by high - first

/-- The refusal that leaves some characters in the output of a run. -/
def refusalBehind (attempt : Output.Refusal → Except Fault Outcome) (requests taken : Nat)
    (error : FileError) : Output.Refusal :=
  let size (granted : Nat) : Nat :=
    match attempt ⟨granted, 0, error⟩ with
    | .ok outcome => outcome.output.length
    | .error _ => 0
  let granted := lastPassing (size · ≤ taken) 0 requests
  ⟨granted, taken - size granted, error⟩

/-- Carry out what an outcome leaves besides its output. -/
def conclude : Except Fault Outcome → IO UInt32
  | .error fault => do
    IO.eprintln fault.message
    return 101
  | .ok outcome => do
    if outcome.keepsHistory then makeHistoryFolder
    IO.eprint outcome.errors
    return outcome.code

/-- Carry out a run. One whose output refuses what it writes is run again with that refusal. -/
def perform (arguments : List String) : IO UInt32 := do
  let (disk, input) ← gather (Request.ofArguments arguments)
  let shown ← (← IO.getStderr).isTty
  let attempt (refusal? : Option Output.Refusal) : Except Fault Outcome :=
    run disk ⟨input, refusal?, shown⟩ arguments
  match attempt none with
  | .error fault => conclude (.error fault)
  | .ok outcome =>
    match ← write (linesOf outcome.output) 0 with
    | none => conclude (.ok outcome)
    | some (taken, error) =>
      conclude (attempt (refusalBehind (attempt ∘ some) (outcome.output.length + 1) taken error))

end ScriptLexer.Program

/-- Run the program with the arguments of the command line. -/
def main (arguments : List String) : IO UInt32 :=
  ScriptLexer.Program.perform arguments
