import ScriptLexer.Settings.File
import ScriptLexer.Text.Wrap

/-!
# Failures of a run

A run fails when it cannot read what it needs or write what it has; findings about a text are no
failure.

* `RunFailure.report`: the report of a failure: its code, what failed, and why.
-/

namespace ScriptLexer

/-- Why a run cannot go on. -/
inductive RunFailure
  | script (path : String) (error : FileError)
  | settings (failure : LoadFailure)
  | output (error : FileError)
  | prompt (error : FileError)
  deriving DecidableEq

namespace RunFailure

/-- The exit code of a failed run. -/
def exitCode : UInt32 := 74

/-- The code that tells failures apart. -/
def code : RunFailure → String
  | script _ _ => "cream::io"
  | settings _ => "cream::config"
  | output _ => "cream::output"
  | prompt _ => "cream::prompt"

/-- What failed. -/
def message : RunFailure → String
  | script path _ => "could not read script '" ++ path ++ "'"
  | settings failure => failure.message
  | output _ => "could not write tokens"
  | prompt _ => "interactive prompt failed"

/-- Why it failed, from the nearest cause to the last. The prompt tells a broken line as a failure
of its own. -/
def causes : RunFailure → List String
  | script _ error => [error.message]
  | settings failure => [failure.cause]
  | output error => [error.message]
  | prompt error => [error.message, error.message]

/-- The columns of a report. -/
def width : Nat := 78

/-- The causes of a report, joined by a line down the margin. -/
def causeLines : List String → String
  | [] => ""
  | [last] => Wrap.notices last ++ Wrap.block width "  ╰─▶ " "      " last
  | cause :: more =>
    Wrap.notices cause ++ Wrap.block width "  ├─▶ " "  │   " cause ++ causeLines more

/-- The report of a failure. -/
def report (f : RunFailure) : String :=
  f.code ++ "\n\n" ++ Wrap.notices f.message ++ Wrap.block width "  × " "  │ " f.message
    ++ causeLines f.causes ++ "\n"

end RunFailure

end ScriptLexer
