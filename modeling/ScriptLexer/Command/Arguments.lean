import ScriptLexer.Dump.Format

/-!
# Arguments

Arguments are options and scripts in any order. Reading goes from left to right and ends at the
first wrong argument, or at a request for help or the version, whichever comes first; only then are
options compared that exclude each other.

* `Request.ofArguments`: what a list of arguments asks for.
* `Arguments.helpText`, `Arguments.versionText`: the answers to help and version.
-/

namespace ScriptLexer

/-- What the arguments of a run say. -/
structure Arguments where
  scripts : List String
  config : Option String
  format : Option TokenFormat
  color : Bool
  noColor : Bool
  verbose : Bool
  deriving DecidableEq

/-- What the arguments ask for. -/
inductive Request
  | help
  | version
  | wrong
  | run (arguments : Arguments)
  deriving DecidableEq

/-- An option without a value. -/
inductive Flag
  | color
  | noColor
  | verbose
  | help
  | version
  deriving DecidableEq

/-- An option with a value. -/
inductive Setting
  | config
  | format
  deriving DecidableEq

/-- A long option. -/
inductive LongOption
  | flag (flag : Flag)
  | setting (setting : Setting)
  deriving DecidableEq

/-- The long option of a name. -/
def LongOption.ofName? (name : List Char) : Option LongOption :=
  match String.ofList name with
  | "config" => some (.setting .config)
  | "format" => some (.setting .format)
  | "color" => some (.flag .color)
  | "no-color" => some (.flag .noColor)
  | "verbose" => some (.flag .verbose)
  | "help" => some (.flag .help)
  | "version" => some (.flag .version)
  | _ => none

/-- The option of a letter. -/
def Flag.ofLetter? : Char → Option Flag
  | 'v' => some .verbose
  | 'h' => some .help
  | 'V' => some .version
  | _ => none

/-- How an argument is to be taken. A single dash is a script. -/
inductive ArgumentForm
  | plain
  | separator
  | long (name : List Char) (value : Option (List Char))
  | letters (letters : List Char)
  deriving DecidableEq

/-- The form of an argument. -/
def ArgumentForm.of (argument : String) : ArgumentForm :=
  match argument.toList with
  | ['-', '-'] => .separator
  | '-' :: '-' :: rest =>
    let name := rest.takeWhile (· ≠ '=')
    match rest.dropWhile (· ≠ '=') with
    | _ :: value => .long name (some value)
    | [] => .long name none
  | '-' :: letter :: rest => .letters (letter :: rest)
  | _ => .plain

namespace Arguments

/-- The arguments of a run without any. -/
def empty : Arguments := ⟨[], none, none, false, false, false⟩

/-- With one more script, which has to have a name. -/
def addScript (a : Arguments) (script : String) : Except Request Arguments :=
  if script = "" then .error .wrong else .ok { a with scripts := a.scripts ++ [script] }

/-- With a flag raised, which no flag may be twice. -/
def raise (a : Arguments) : Flag → Except Request Arguments
  | .help => .error .help
  | .version => .error .version
  | .color => if a.color then .error .wrong else .ok { a with color := true }
  | .noColor => if a.noColor then .error .wrong else .ok { a with noColor := true }
  | .verbose => if a.verbose then .error .wrong else .ok { a with verbose := true }

/-- With a value for an option, which has to be of its kind and the only one. -/
def assign (a : Arguments) (setting : Setting) (value : String) : Except Request Arguments :=
  match setting with
  | .config =>
    if value = "" ∨ a.config.isSome then .error .wrong else .ok { a with config := some value }
  | .format =>
    match TokenFormat.ofName? value with
    | some format =>
      if a.format.isSome then .error .wrong else .ok { a with format := some format }
    | none => .error .wrong

/-- With the flags of some letters raised in their order. -/
def raiseLetters (a : Arguments) (letters : List Char) : Except Request Arguments :=
  letters.foldlM (fun a letter => match Flag.ofLetter? letter with
    | some flag => a.raise flag
    | none => .error .wrong) a

/-- With the arguments of a list taken one after another. An option takes its value from the next
argument if that can be one. -/
def takeAll (a : Arguments) : List String → Except Request Arguments
  | [] => .ok a
  | argument :: rest =>
    match ArgumentForm.of argument with
    | .plain => do (← a.addScript argument).takeAll rest
    | .separator => rest.foldlM addScript a
    | .letters letters => do (← a.raiseLetters letters).takeAll rest
    | .long name value =>
      match LongOption.ofName? name, value with
      | none, _ => .error .wrong
      | some (.flag flag), none => do (← a.raise flag).takeAll rest
      | some (.flag _), some _ => .error .wrong
      | some (.setting setting), some value => do
        (← a.assign setting (String.ofList value)).takeAll rest
      | some (.setting setting), none =>
        match rest with
        | [] => .error .wrong
        | value :: rest =>
          if ArgumentForm.of value = .plain then do
            (← a.assign setting value).takeAll rest
          else .error .wrong

/-- The name and version of the program. -/
def versionText : String := "cream-cheese 0.1.0\n"

/-- The text of the help. -/
def helpText : String :=
  "Tokenize cream-cheese scripts\n" ++
  "\n" ++
  "Usage: cream-cheese [OPTIONS] [SCRIPT]...\n" ++
  "\n" ++
  "Arguments:\n" ++
  "  [SCRIPT]...  Script to scan. Starts an interactive prompt when omitted\n" ++
  "\n" ++
  "Options:\n" ++
  "      --config <CONFIG>  Path to a cream.json config file\n" ++
  "      --format <FORMAT>  Token output format [possible values: text, json]\n" ++
  "      --color            Force colored diagnostics\n" ++
  "      --no-color         Disable colored diagnostics\n" ++
  "  -v, --verbose          Log scanner activity to stderr\n" ++
  "  -h, --help             Print help\n" ++
  "  -V, --version          Print version\n"

/-- The line that tells how the program is used. -/
def usageText : String := "Usage: cream-cheese [script]\n"

end Arguments

/-- What a list of arguments asks for. -/
def Request.ofArguments (arguments : List String) : Request :=
  match Arguments.empty.takeAll arguments with
  | .error request => request
  | .ok a => if a.color ∧ a.noColor then .wrong else .run a

end ScriptLexer
