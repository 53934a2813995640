import ScriptLexer.Report.Reporter
import ScriptLexer.Scan.Lexeme

/-!
# Scanning a text

A scanner gives the tokens of a text one at a time. Between two tokens it skips blanks and comments
and hands rejected lexemes to its reporter, so a finding is reported when the token after it is
asked for, and not before. The last token marks the end of the text; after it there is none.

* `Scanner.next`: the next token.
* `Scanner.drain`: all tokens that are left.
* `Scanner.next_remaining_lt`: a token brings the end nearer.
* `scan`: all tokens of a text.
-/

namespace ScriptLexer

/-- A place in a text: the bytes before it, and its line. -/
structure Place where
  offset : Nat
  line : Nat
  deriving DecidableEq

namespace Place

/-- The beginning of every text. -/
def start : Place := ⟨0, 1⟩

/-- The place behind a text that begins at this one. -/
def after (p : Place) (text : List Char) : Place :=
  ⟨p.offset + Text.byteWidth text, p.line + Text.newlines text⟩

end Place

/-- The token of a shape for the text between two places. It carries the line on which it begins. -/
def Shape.token (shape : Shape) (text : List Char) (start stop : Place) : Except Fault Token := do
  let span ← Span.ofRange start.offset stop.offset
  let lexeme := String.ofList text
  match shape with
  | .plain kind => Token.plain kind lexeme start.line span
  | .number value => return .number value lexeme start.line span
  | .string content => return .string content lexeme start.line span

/-- A text being scanned: what is left of it, where that begins, who takes the findings, and
whether the end has been given. -/
structure Scanner (ρ : Type) where
  pending : List Char
  place : Place
  reporter : ρ
  finished : Bool

namespace Scanner

variable {ρ : Type} [Reporter ρ]

/-- A scanner at the beginning of a text. -/
def ofText (text : String) (reporter : ρ) : Scanner ρ :=
  ⟨text.toList, .start, reporter, false⟩

/-- The line that the scanner has come to. -/
def line (s : Scanner ρ) : Nat :=
  s.place.line

/-- The first token of a text that begins at a place, with the scanner behind it. -/
def seek (pending : List Char) (place : Place) (reporter : ρ) : Except Fault (Token × Scanner ρ) :=
  match pending with
  | [] => .ok (.eof place.line place.offset.toUInt32, ⟨[], place, reporter, true⟩)
  | c :: cs =>
    let found := Lexeme.first c cs
    let stop := place.after found.1.text
    match found.1.verdict with
    | .skipped => seek found.2 stop reporter
    | .rejected message => seek found.2 stop (Reporter.error reporter stop.line message.text)
    | .token shape => do
      let token ← shape.token found.1.text place stop
      return (token, ⟨found.2, stop, reporter, false⟩)
termination_by pending.length
decreasing_by all_goals exact Lexeme.first_rest_lt c cs

/-- The next token, none once the end of the text has been given. -/
def next (s : Scanner ρ) : Except Fault (Option Token × Scanner ρ) :=
  if s.finished then .ok (none, s) else do
    let (token, rest) ← seek s.pending s.place s.reporter
    return (some token, rest)

/-- How much is left: the pending characters, and the end if it has not been given. -/
def remaining (s : Scanner ρ) : Nat :=
  s.pending.length + if s.finished then 0 else 1

theorem seek_remaining_le (pending : List Char) (place : Place) (reporter : ρ) (token : Token)
    (rest : Scanner ρ) (h : seek pending place reporter = .ok (token, rest)) :
    rest.remaining ≤ pending.length := by
  fun_induction seek pending place reporter with
  | case1 place reporter =>
    cases h
    simp [remaining]
  | case2 place reporter c cs found stop hv ih =>
    exact Nat.le_trans (ih h) (Nat.le_of_lt (Lexeme.first_rest_lt c cs))
  | case3 place reporter c cs found stop message hv ih =>
    exact Nat.le_trans (ih h) (Nat.le_of_lt (Lexeme.first_rest_lt c cs))
  | case4 place reporter c cs found stop shape hv =>
    cases ht : shape.token found.1.text place stop with
    | error fault => simp [ht, bind, Except.bind] at h
    | ok made =>
      simp only [ht, bind, Except.bind, pure, Except.pure, Except.ok.injEq, Prod.mk.injEq] at h
      rw [← h.2]
      exact Lexeme.first_rest_lt c cs

/-- A token brings the end nearer. -/
theorem next_remaining_lt {s rest : Scanner ρ} {token : Token}
    (h : s.next = .ok (some token, rest)) : rest.remaining < s.remaining := by
  unfold next at h
  split at h
  · simp at h
  next hf =>
    cases hs : seek s.pending s.place s.reporter with
    | error fault => simp [hs, bind, Except.bind] at h
    | ok found =>
      obtain ⟨made, left⟩ := found
      simp only [hs, bind, Except.bind, pure, Except.pure, Except.ok.injEq, Prod.mk.injEq] at h
      have := seek_remaining_le _ _ _ _ _ hs
      rw [← h.2]
      simp only [remaining, hf] at this ⊢
      simp only [Bool.false_eq_true, ↓reduceIte]
      omega

/-- Put the tokens that are left behind some that were taken before. -/
def drainOnto (taken : Array Token) (s : Scanner ρ) : Except Fault (Array Token × Scanner ρ) :=
  match h : s.next with
  | .error fault => .error fault
  | .ok (none, rest) => .ok (taken, rest)
  | .ok (some token, rest) =>
    have := next_remaining_lt h
    drainOnto (taken.push token) rest
termination_by s.remaining

/-- The tokens that are left, and the scanner at the end. -/
def drain (s : Scanner ρ) : Except Fault (Array Token × Scanner ρ) :=
  drainOnto #[] s

end Scanner

/-- All tokens of a text, and the scanner at its end. -/
def scan {ρ : Type} [Reporter ρ] (text : String) (reporter : ρ) :
    Except Fault (Array Token × Scanner ρ) :=
  (Scanner.ofText text reporter).drain

end ScriptLexer
