import ScriptLexer.Token.Kind

/-!
# Faults

A fault is a check that did not hold: the caller asked for a span or a token that cannot exist.
Faults are not findings about a text, those are diagnostics.
-/

namespace ScriptLexer

/-- The checks that can fail. -/
inductive Fault
  /-- The end of a span lies past the last 32-bit position. -/
  | endOverflow
  /-- The bounds of a span stand in the wrong order. -/
  | reversedBounds
  /-- A token of a kind that carries a value was asked for without one. -/
  | missingLiteral (kind : Kind)
  deriving DecidableEq

/-- The words that tell a fault. -/
def Fault.message : Fault → String
  | endOverflow => "attempt to add with overflow"
  | reversedBounds => "assertion failed: end >= start"
  | missingLiteral kind => kind.name ++ " tokens need a literal payload"

/-- Two steps that may fail have a result together only if each has one. -/
theorem exists_of_bind {ε α β : Type} {x : Except ε α} {f : α → Except ε β} {b : β}
    (h : (x >>= f) = .ok b) : ∃ a, x = .ok a ∧ f a = .ok b := by
  cases x with
  | error error => cases h
  | ok a => exact ⟨a, rfl, h⟩

end ScriptLexer
