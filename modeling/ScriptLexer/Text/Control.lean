import ScriptLexer.Character.Columns

/-!
# Control sequences

A terminal does not draw the characters of a control sequence. An escape character begins one: with
an opening bracket after it, the sequence goes on to its first final character; with a closing
bracket, to a bell or to a backslash behind an escape character; otherwise it is the escape
character and the one after it.

* `Control.marked`: the characters of a text, each with whether it is drawn.
* `Control.drawn`: the characters that are drawn.
* `Control.width`: the columns that a text takes.
-/

namespace ScriptLexer.Control

/-- Where a reader stands: outside of all sequences, behind an escape character, behind its opening
bracket, or behind its closing bracket, where the last character counts. -/
inductive State
  | outside
  | escaped
  | parameters
  | command (last : Char)
  deriving DecidableEq

/-- The state behind a character, and whether the character is drawn. -/
def step : State → Char → State × Bool
  | .outside, c => if c = '\x1b' then (.escaped, false) else (.outside, true)
  | .escaped, c =>
    (if c = '[' then .parameters else if c = ']' then .command c else .outside, false)
  | .parameters, c => (if '@' ≤ c ∧ c ≤ '~' then .outside else .parameters, false)
  | .command last, c =>
    (if c = '\x07' ∨ (c = '\\' ∧ last = '\x1b') then .outside else .command c, false)

/-- The characters of a text from a state on, each with whether it is drawn. -/
def markedFrom : State → List Char → List (Char × Bool)
  | _, [] => []
  | s, c :: cs => (c, (step s c).2) :: markedFrom (step s c).1 cs

/-- The characters of a text, each with whether it is drawn. -/
def marked (cs : List Char) : List (Char × Bool) :=
  markedFrom .outside cs

/-- The characters that are drawn. -/
def drawn (cs : List Char) : List Char :=
  ((marked cs).filter (·.2)).map (·.1)

/-- The columns that a text takes. -/
def width (cs : List Char) : Nat :=
  (drawn cs).foldr (fun c n => Columns.ofChar c + n) 0

theorem map_markedFrom (s : State) (cs : List Char) : (markedFrom s cs).map (·.1) = cs := by
  induction cs generalizing s with
  | nil => rfl
  | cons c cs ih => simp [markedFrom, ih]

/-- Marking loses nothing. -/
@[simp] theorem map_marked (cs : List Char) : (marked cs).map (·.1) = cs :=
  map_markedFrom .outside cs

end ScriptLexer.Control
