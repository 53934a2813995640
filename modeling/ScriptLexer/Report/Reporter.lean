import ScriptLexer.Report.Diagnostic

/-!
# Reporters

Findings do not end a scan: each is handed to a reporter, whose owner decides what it means.

* `Reporter`: what a scan needs of one.
* `Collection`: keeps the findings in the order they came.
* `Console`: writes each finding to a sink at once, which may refuse it, and keeps a flag.
-/

namespace ScriptLexer

/-- Takes findings, and remembers whether one since the last reset was an error. -/
class Reporter (ρ : Type) where
  /-- Take a finding on a line; the location stands in front of the message. -/
  report : ρ → (line : Nat) → (location message : String) → ρ
  hadError : ρ → Bool
  reset : ρ → ρ

/-- Take a finding without a location. -/
def Reporter.error {ρ : Type} [Reporter ρ] (r : ρ) (line : Nat) (message : String) : ρ :=
  Reporter.report r line "" message

/-- The findings so far, oldest first. -/
structure Collection where
  entries : Array Diagnostic
  deriving DecidableEq

namespace Collection

def empty : Collection := ⟨#[]⟩

def add (c : Collection) (d : Diagnostic) : Collection :=
  ⟨c.entries.push d⟩

def hasErrors (c : Collection) : Bool :=
  c.entries.any (·.isError)

def errorCount (c : Collection) : Nat :=
  c.entries.countP (·.isError)

/-- The latest finding. -/
def last? (c : Collection) : Option Diagnostic :=
  c.entries.back?

instance : Reporter Collection where
  report c line location message := c.add (.ofText line location message)
  hadError := hasErrors
  reset _ := empty

end Collection

/-- Where a console writes: a sink may refuse everything. -/
structure Sink where
  accepts : Bool
  written : String
  deriving DecidableEq

/-- Add a text to what was written, unless the sink refuses it. -/
def Sink.write (s : Sink) (text : String) : Sink :=
  if s.accepts then { s with written := s.written ++ text } else s

/-- Writes findings as they come; the flag is raised whether or not the sink took the text. -/
structure Console where
  colored : Bool
  sink : Sink
  flagged : Bool
  deriving DecidableEq

namespace Console

/-- A console over an empty sink. -/
def fresh (colored accepts : Bool) : Console :=
  ⟨colored, ⟨accepts, ""⟩, false⟩

/-- The line for a finding. In colour it is bold, an error red and anything else yellow. -/
def render (colored : Bool) (d : Diagnostic) : String :=
  if colored then
    "\x1b[1m" ++ (if d.isError then "\x1b[31m" else "\x1b[33m") ++ d.text ++ "\x1b[0m\n"
  else d.text ++ "\n"

instance : Reporter Console where
  report c line location message :=
    let d := Diagnostic.ofText line location message
    { c with sink := c.sink.write (render c.colored d), flagged := c.flagged || d.isError }
  hadError := flagged
  reset c := { c with flagged := false }

end Console

end ScriptLexer
