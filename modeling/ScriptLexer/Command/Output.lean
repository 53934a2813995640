import ScriptLexer.Files.Tree

/-!
# The output of a run

An output takes one text after another, and is flushed in between. It may refuse to go on at any of
these requests; a run then stops, so only the first refusal of an output counts.

* `Output.Refusal`: when an output refuses to go on, and why.
* `Output.write`, `Output.flush`: the output after a request, and why it was refused.
-/

namespace ScriptLexer

/-- An output refuses to go on: how many requests it grants before, how many characters it still
takes of the text that it refuses, and why. -/
structure Output.Refusal where
  granted : Nat
  characters : Nat
  error : FileError
  deriving DecidableEq

/-- What a refused text leaves in the output. -/
def Output.Refusal.beginning (r : Output.Refusal) (text : String) : String :=
  .ofList (text.toList.take r.characters)

/-- An output: the refusal that it comes to, none if it takes everything, and what was written. -/
structure Output where
  refusal? : Option Output.Refusal
  written : String
  deriving DecidableEq

namespace Output

/-- An output with one more text, and why that was refused. -/
def write (o : Output) (text : String) : Output × Option FileError :=
  match o.refusal? with
  | none => ({ o with written := o.written ++ text }, none)
  | some r =>
    match r.granted with
    | 0 => ({ o with written := o.written ++ r.beginning text }, some r.error)
    | left + 1 => (⟨some { r with granted := left }, o.written ++ text⟩, none)

/-- A flushed output, and why that was refused. -/
def flush (o : Output) : Output × Option FileError :=
  o.write ""

end Output

end ScriptLexer
