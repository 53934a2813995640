import ScriptLexer.Command.Choice
import ScriptLexer.Command.Failure
import ScriptLexer.Command.Output
import ScriptLexer.Command.Prompt
import ScriptLexer.Scan.Scanner

/-!
# A run of the program

A run scans a script, or each line given to its prompt, and prints every token as it comes. Findings
go to the console of errors. All that a run does is its outcome; what it leaves on the disk is told
in `ScriptLexer.Command.Session`.

* `printTokens`: the tokens of a scanner onto an output.
* `runScript`: the scan of a script.
* `converse`: the scans of the lines of a prompt, with a history of them.
* `Course`: where arguments lead.
* `run`: the outcome of a list of arguments.
-/

namespace ScriptLexer

/-- What a run is given besides its arguments: the bytes of its input, the refusal that its output
comes to, none if that takes everything, and whether its errors go to a terminal. -/
structure Streams where
  input : ByteArray
  refusal? : Option Output.Refusal
  errorsShown : Bool

/-- What a run leaves: its exit code, what it wrote, and whether it came to the prompt with a
history to keep. -/
structure Outcome where
  code : UInt32
  output : String
  errors : String
  keepsHistory : Bool
  deriving DecidableEq

namespace Outcome

/-- The exit code of wrong arguments. -/
def wrongArguments : UInt32 := 2

/-- The exit code of too many scripts. -/
def usage : UInt32 := 64

/-- The exit code of a script with findings. -/
def dataError : UInt32 := 65

end Outcome

/-- The state of a run: its output and its console of errors. -/
structure Printing where
  output : Output
  console : Console
  deriving DecidableEq

namespace Printing

/-- The outcome of a run that ends here. -/
def finish (p : Printing) (code : UInt32) (keepsHistory : Bool) : Outcome :=
  ⟨code, p.output.written, p.console.sink.written, keepsHistory⟩

/-- The outcome of a run that fails here. -/
def fail (p : Printing) (failure : RunFailure) (keepsHistory : Bool) : Outcome :=
  ⟨RunFailure.exitCode, p.output.written, p.console.sink.written ++ failure.report, keepsHistory⟩

end Printing

/-- Print the tokens that are left, each as it comes, and flush the output behind them, until the
output refuses to go on. The answer tells why it did. -/
def printTokens (format : TokenFormat) (output : Output) (s : Scanner Console) :
    Except Fault (Printing × Option FileError) :=
  match h : s.next with
  | .error fault => .error fault
  | .ok (none, rest) => .ok (⟨output.flush.1, rest.reporter⟩, output.flush.2)
  | .ok (some token, rest) =>
    have := Scanner.next_remaining_lt h
    match output.write (format.entry token) with
    | (output, none) => printTokens format output rest
    | (output, some error) => .ok (⟨output, rest.reporter⟩, some error)
termination_by s.remaining

/-- Scan a text and print its tokens. -/
def Printing.scanText (p : Printing) (format : TokenFormat) (text : String) :
    Except Fault (Printing × Option FileError) :=
  printTokens format p.output (Scanner.ofText text p.console)

/-- Scan a script. -/
def runScript (disk : Disk) (options : Options) (path : String) (p : Printing) :
    Except Fault Outcome := do
  match disk.readText path with
  | .error error => return p.fail (.script path error) false
  | .ok text =>
    match ← p.scanText options.tokenFormat text with
    | (p, some error) => return p.fail (.output error) false
    | (p, none) => return p.finish (if p.console.flagged then Outcome.dataError else 0) false

/-- Scan lines one by one, up to the first blank one. Each is noted in the history and scanned by
itself, and the console forgets the findings of the last. The history is given back, unless the
session fails. -/
def converse {η : Type} (note : η → String → η) (options : Options) :
    List (Option String) → η → Printing → Except Fault (Outcome × Option η)
  | [], history, p => .ok (p.finish 0 options.history, some history)
  | none :: _, _, p => .ok (p.fail (.prompt .notText) options.history, none)
  | some line :: more, history, p =>
    if Blank.isBlank line then .ok (p.finish 0 options.history, some (note history line))
    else do
      match ← p.scanText options.tokenFormat line with
      | (p, some error) => return (p.fail (.output error) options.history, none)
      | (p, none) =>
        converse note options more (note history line)
          { p with console := Reporter.reset p.console }

/-- Scan lines without a history. -/
def runPrompt (options : Options) (lines : List (Option String)) (p : Printing) :
    Except Fault Outcome :=
  (converse (fun history _ => history) options lines () p).map (·.1)

/-- Where arguments lead: to the end of the run, to a script, or to the prompt. -/
inductive Course
  | ended (outcome : Outcome)
  | script (options : Options) (path : String) (p : Printing)
  | prompt (options : Options) (p : Printing)

/-- Where arguments lead that ask for neither help nor version. More than one script is refused
before anything is read. -/
def Arguments.course (disk : Disk) (streams : Streams) (a : Arguments) : Course :=
  if 1 < a.scripts.length then .ended ⟨Outcome.usage, "", Arguments.usageText, false⟩
  else
    let output : Output := ⟨streams.refusal?, ""⟩
    match a.options disk with
    | .error failure =>
      .ended ((Printing.mk output (.fresh false true)).fail (.settings failure) false)
    | .ok options =>
      let p : Printing := ⟨output, .fresh (options.color.getD streams.errorsShown) true⟩
      match a.script? with
      | some path => .script options path p
      | none => .prompt options p

/-- Where a list of arguments leads. -/
def Course.ofArguments (disk : Disk) (streams : Streams) (arguments : List String) : Course :=
  let shown (text : String) : Outcome :=
    ⟨0, (Output.write ⟨streams.refusal?, ""⟩ text).1.written, "", false⟩
  match Request.ofArguments arguments with
  | .help => .ended (shown Arguments.helpText)
  | .version => .ended (shown Arguments.versionText)
  | .wrong => .ended ⟨Outcome.wrongArguments, "", Arguments.usageText, false⟩
  | .run a => a.course disk streams

/-- The outcome of a list of arguments. -/
def run (disk : Disk) (streams : Streams) (arguments : List String) : Except Fault Outcome :=
  match Course.ofArguments disk streams arguments with
  | .ended outcome => .ok outcome
  | .script options path p => runScript disk options path p
  | .prompt options p => runPrompt options (Prompt.lines streams.input) p

end ScriptLexer
