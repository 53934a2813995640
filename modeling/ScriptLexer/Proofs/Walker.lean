import ScriptLexer.Proofs.NumberText
import ScriptLexer.Proofs.TokenPlaces

/-!
# Scanning by positions

A scan can be told by two positions in the bytes of a text: where the lexeme began, and where the
next character does. Every slice, sum and difference of positions is then a check that may fail, as
are the bounds of a span and the value of a token. One step takes one character inside a lexeme, or
begins or ends one.

* `Breach`: what a check can find.
* `Walker`, `Walker.step`: the two positions, and one step with all its checks.
* `Walker.amid`: a walker behind some characters of a lexeme.
* `Walker.peek_amid`, `Walker.advance_amid`, `Walker.give_amid`, ...: what the checks find there.
-/

namespace ScriptLexer

/-- What a check of a step can find. -/
inductive Breach
  /-- A slice out of bounds, in the wrong order or with an end inside a character. -/
  | slice (start stop : Nat)
  /-- A sum past the last word of 64 bits. -/
  | sum (a b : Nat)
  /-- A difference below zero. -/
  | difference (a b : Nat)
  /-- A span or a token that cannot exist. -/
  | fault (fault : Fault)
  deriving DecidableEq

namespace Checked

def sum (a b : Nat) : Except Breach Nat :=
  if a + b < UInt64.size then .ok (a + b) else .error (.sum a b)

def difference (a b : Nat) : Except Breach Nat :=
  if b ≤ a then .ok (a - b) else .error (.difference a b)

/-- The characters between two positions. -/
def slice (text : List Char) (start stop : Nat) : Except Breach (List Char) :=
  match Text.slice? text start stop with
  | some part => .ok part
  | none => .error (.slice start stop)

/-- The bytes from a position on. -/
def bytes (text : List Char) (start : Nat) : Except Breach (List UInt8) :=
  let all := text.flatMap String.utf8EncodeChar
  if start ≤ all.length then .ok (all.drop start) else .error (.slice start all.length)

end Checked

/-- The number that characters write, zero if they write none. -/
def Binary64.written (cs : List Char) : Binary64 :=
  (ofText? (.ofList cs)).getD (ofMagnitude false 0)

/-- What a walker is in the middle of. -/
inductive Phase
  | between
  | string
  | whole
  | fraction
  | word
  | finished
  deriving DecidableEq

/-- Where the lexeme began, where the next character does, and who takes the findings. -/
structure Walker (ρ : Type) where
  start : Place
  current : Place
  phase : Phase
  reporter : ρ

namespace Walker

variable {ρ : Type} [Reporter ρ]

/-- A walker at the beginning of a text. -/
def fresh (reporter : ρ) : Walker ρ :=
  ⟨.start, .start, .between, reporter⟩

section

variable (text : List Char) (w : Walker ρ)

/-- The characters from the current position on. -/
def rest : Except Breach (List Char) :=
  Checked.slice text w.current.offset (Text.byteWidth text)

/-- The next character. -/
def peek : Except Breach (Option Char) := do
  return (← w.rest text).head?

/-- The character after the next one. -/
def peekNext : Except Breach (Option Char) := do
  return (← w.rest text).tail.head?

/-- Move on by some bytes. -/
def move (bytes : Nat) : Except Breach (Walker ρ) := do
  let offset ← Checked.sum w.current.offset bytes
  return { w with current := { w.current with offset } }

/-- Take the next character, if there is one. -/
def advance : Except Breach (Option Char × Walker ρ) := do
  match ← w.peek text with
  | none => return (none, w)
  | some c => return (some c, ← w.move c.utf8Size)

/-- Take the next character if it is the expected one. -/
def accept (expected : Char) : Except Breach (Bool × Walker ρ) := do
  if (← w.peek text) = some expected then
    return (true, ← w.move expected.utf8Size)
  else return (false, w)

/-- Count a line feed. -/
def newline : Except Breach (Walker ρ) := do
  let line ← Checked.sum w.current.line 1
  return { w with current := { w.current with line } }

/-- The characters of the lexeme so far. -/
def lexeme : Except Breach (List Char) :=
  Checked.slice text w.start.offset w.current.offset

/-- The characters of the lexeme without its first and its last byte. -/
def value : Except Breach (List Char) := do
  let start ← Checked.sum w.start.offset 1
  let stop ← Checked.difference w.current.offset 1
  Checked.slice text start stop

/-- End the lexeme with a token. -/
def give (shape : Shape) : Except Breach (Walker ρ × Option Token) := do
  let characters ← w.lexeme text
  let token ← (shape.token characters w.start w.current).mapError Breach.fault
  return ({ w with phase := .between }, some token)

/-- End the lexeme with a finding on the current line. -/
def reject (message : Message) : Walker ρ × Option Token :=
  let reporter := Reporter.error w.reporter w.current.line message.text
  ({ w with phase := .between, reporter }, none)

/-- Move on to the next line feed, or to the end. -/
def skipComment : Except Breach (Walker ρ) := do
  let bytes ← Checked.bytes text w.current.offset
  w.move (bytes.idxOf 10)

/-- Begin a lexeme whose first character was taken. -/
def onFirst (c : Char) : Except Breach (Walker ρ × Option Token) :=
  match Punctuation.single? c with
  | some mark => w.give text (.plain (.punctuation mark))
  | none =>
    match Punctuation.pair? c with
    | some (alone, joined) => do
      let (found, w) ← w.accept text '='
      w.give text (.plain (.punctuation (if found then joined else alone)))
    | none =>
      if c = '/' then do
        let (found, w) ← w.accept text '/'
        if found then return (← w.skipComment text, none)
        else w.give text (.plain (.punctuation .slash))
      else if c = '\n' then return (← w.newline, none)
      else if isLineBlank c then .ok (w, none)
      else if c = '"' then .ok ({ w with phase := .string }, none)
      else if c.isDigit then .ok ({ w with phase := .whole }, none)
      else if isWordStart c then .ok ({ w with phase := .word }, none)
      else .ok (w.reject .unexpectedCharacter)

/-- Give the end. -/
def finish : Except Breach (Walker ρ × Option Token) := do
  let span := Span.empty w.current.offset.toUInt32
  let token ← (Token.plain .eof "" w.current.line span).mapError Breach.fault
  return ({ w with start := { w.start with offset := w.current.offset }, phase := .finished },
    some token)

/-- Take the first character of a lexeme and go on as it demands. -/
def opened : Except Breach (Walker ρ × Option Token) := do
  let (first, w) ← w.advance text
  match first with
  | none => return (w, none)
  | some c => w.onFirst text c

/-- Begin a lexeme at the current position, or give the end. -/
def stepBetween : Except Breach (Walker ρ × Option Token) :=
  if Text.byteWidth text ≤ w.current.offset then w.finish
  else opened text { w with start := w.current }

/-- End a string: reject it at the end of the text, or else take the quote and give the characters
between the two. -/
def endString : Except Breach (Walker ρ × Option Token) := do
  if Text.byteWidth text ≤ w.current.offset then return w.reject .unterminatedString
  else
    let (_, w) ← w.advance text
    let value ← w.value text
    w.give text (.string (.ofList value))

def stepString : Except Breach (Walker ρ × Option Token) := do
  let next ← w.peek text
  if next = none ∨ next = some '"' then w.endString text
  else
    let w ← if next = some '\n' then w.newline else pure w
    let (_, w) ← w.advance text
    return (w, none)

/-- Take the next character if it is of a class, or else end the lexeme. -/
def takeOr (p : Char → Bool) (ending : Except Breach (Walker ρ × Option Token)) :
    Except Breach (Walker ρ × Option Token) := do
  if (← w.peek text).any p then
    let (_, w) ← w.advance text
    return (w, none)
  else ending

/-- End a number with the value that its characters write. -/
def endNumber : Except Breach (Walker ρ × Option Token) := do
  let characters ← w.lexeme text
  w.give text (.number (.written characters))

/-- End the whole part of a number: take a point that a digit follows, or else end the number. -/
def endWhole : Except Breach (Walker ρ × Option Token) := do
  if (← w.peek text) = some '.' then
    if (← w.peekNext text).any Char.isDigit then
      let (_, w) ← w.advance text
      return ({ w with phase := .fraction }, none)
    else w.endNumber text
  else w.endNumber text

/-- End a word with the kind that its characters spell. -/
def endWord : Except Breach (Walker ρ × Option Token) := do
  let characters ← w.lexeme text
  w.give text (.plain (.ofWord (.ofList characters)))

/-- **One step**, and the token that it gives. -/
def step : Except Breach (Walker ρ × Option Token) :=
  match w.phase with
  | .between => w.stepBetween text
  | .string => w.stepString text
  | .whole => w.takeOr text Char.isDigit (w.endWhole text)
  | .fraction => w.takeOr text Char.isDigit (w.endNumber text)
  | .word => w.takeOr text isWordPart (w.endWord text)
  | .finished => .ok (w, none)

end

/-- Some steps, and the tokens that they give. -/
def run (text : List Char) : Nat → Walker ρ → Except Breach (List Token × Walker ρ)
  | 0, w => .ok ([], w)
  | n + 1, w => do
    let (w, token) ← w.step text
    let (tokens, w) ← run text n w
    return (token.toList ++ tokens, w)

/-! ## What the checks find -/

/-- A walker in a lexeme that began behind `front`, of which it has taken `mid`. -/
def amid (front mid : List Char) (phase : Phase) (reporter : ρ) : Walker ρ :=
  ⟨Place.start.after front, (Place.start.after front).after mid, phase, reporter⟩

end Walker

theorem Checked.sum_eq {a b : Nat} (h : a + b < UInt64.size) : Checked.sum a b = .ok (a + b) :=
  if_pos h

theorem Checked.difference_eq {a b : Nat} (h : b ≤ a) : Checked.difference a b = .ok (a - b) :=
  if_pos h

theorem Checked.slice_append (before part after : List Char) :
    Checked.slice (before ++ (part ++ after)) (Text.byteWidth before)
      (Text.byteWidth before + Text.byteWidth part) = .ok part := by
  rw [slice, Text.slice?_append]

/-- Behind characters that are no line feeds, its byte is found in front of a line feed, or not
until the end. -/
theorem Text.idxOf_lineFeed {body rest : List Char} (hb : '\n' ∉ body)
    (hs : Stops (· ≠ '\n') rest) :
    ((body ++ rest).flatMap String.utf8EncodeChar).idxOf 10 = byteWidth body := by
  have hnot : 10 ∉ body.flatMap String.utf8EncodeChar := by
    intro h
    obtain ⟨c, hc, hbyte⟩ := List.mem_flatMap.1 h
    exact hb ((lineFeed_mem_encoding c).1 hbyte ▸ hc)
  have hrest : (rest.flatMap String.utf8EncodeChar).idxOf 10 = 0 := by
    cases rest with
    | nil => rfl
    | cons c rest =>
      obtain rfl : c = '\n' := by simpa using hs
      rfl
  rw [List.flatMap_append, List.idxOf_append_of_notMem hnot, hrest, length_encoding]
  rfl

/-- The bytes of a text behind its beginning. -/
theorem Checked.bytes_append (before after : List Char) :
    Checked.bytes (before ++ after) (Text.byteWidth before) =
      .ok (after.flatMap String.utf8EncodeChar) := by
  simp only [bytes, List.flatMap_append, List.length_append, ← Text.length_encoding,
    Nat.le_add_right, if_true, List.drop_left]

namespace Walker

variable {ρ : Type} {text before front mid after : List Char} {c : Char} {phase : Phase} {r : ρ}
  {w : Walker ρ}

theorem rest_eq (ht : text = before ++ after) (hw : w.current.offset = Text.byteWidth before) :
    w.rest text = .ok after := by
  have h := Checked.slice_append before after []
  rw [List.append_nil] at h
  rw [rest, hw, ht, Text.byteWidth_append, h]

theorem peek_eq (ht : text = before ++ after) (hw : w.current.offset = Text.byteWidth before) :
    w.peek text = .ok after.head? := by
  rw [peek, rest_eq ht hw]
  rfl

theorem peekNext_eq (ht : text = before ++ after) (hw : w.current.offset = Text.byteWidth before) :
    w.peekNext text = .ok after.tail.head? := by
  rw [peekNext, rest_eq ht hw]
  rfl

/-- Positions of 32 bits are far from the last word of 64 bits. -/
theorem lt_wordSize {n : Nat} (h : n < UInt32.size) : n < UInt64.size :=
  Nat.lt_trans h (by decide)

theorem move_eq_ok_iff {w' : Walker ρ} {bytes : Nat} : w.move bytes = .ok w' ↔
    w.current.offset + bytes < UInt64.size ∧
      w' = { w with current := ⟨w.current.offset + bytes, w.current.line⟩ } := by
  unfold move Checked.sum
  split
  next h =>
    constructor
    · intro hmoved
      cases hmoved
      exact ⟨h, rfl⟩
    · rintro ⟨-, rfl⟩
      rfl
  next h => exact iff_of_false (by simp [bind, Except.bind]) fun hand => h hand.1

theorem move_eq {bytes : Nat} (h : w.current.offset + bytes < UInt64.size) :
    w.move bytes = .ok { w with current := ⟨w.current.offset + bytes, w.current.line⟩ } :=
  move_eq_ok_iff.2 ⟨h, rfl⟩

theorem advance_of_move {w' : Walker ρ} (ht : text = before ++ c :: after)
    (hw : w.current.offset = Text.byteWidth before) (hmove : w.move c.utf8Size = .ok w') :
    w.advance text = .ok (some c, w') := by
  rw [advance, peek_eq ht hw]
  simp only [bind, Except.bind, List.head?_cons, hmove]
  rfl

theorem advance_eq (ht : text = before ++ c :: after)
    (hw : w.current.offset = Text.byteWidth before) (hsize : Text.byteWidth text < UInt32.size) :
    w.advance text = .ok (some c,
      { w with current := ⟨w.current.offset + c.utf8Size, w.current.line⟩ }) := by
  have hbound : w.current.offset + c.utf8Size < UInt32.size := by
    rw [ht, Text.byteWidth_append, Text.byteWidth_cons] at hsize
    omega
  exact advance_of_move ht hw (move_eq (lt_wordSize hbound))

/-- **The search for the byte of a line feed** moves on over the characters in front of it. -/
theorem skipComment_eq_move {body : List Char} (ht : text = before ++ (body ++ after))
    (hw : w.current.offset = Text.byteWidth before) (hb : '\n' ∉ body)
    (hs : Text.Stops (· ≠ '\n') after) : w.skipComment text = w.move (Text.byteWidth body) := by
  have hbytes := Checked.bytes_append before (body ++ after)
  rw [← ht, ← hw] at hbytes
  rw [skipComment, hbytes]
  simp only [bind, Except.bind, Text.idxOf_lineFeed hb hs]

theorem newline_eq (h : w.current.line + 1 < UInt64.size) :
    w.newline = .ok { w with current := ⟨w.current.offset, w.current.line + 1⟩ } := by
  rw [newline, Checked.sum_eq h]
  rfl

/-! ## A walker in a lexeme -/

theorem amid_offset : (amid front mid phase r).current.offset = Text.byteWidth (front ++ mid) := by
  rw [amid, Place.after_offset, Place.after_offset, Place.start_offset, Nat.zero_add,
    Text.byteWidth_append]

/-- A walker that has taken more of its lexeme. -/
theorem amid_append (front mid part : List Char) (phase : Phase) (r : ρ) :
    amid front (mid ++ part) phase r = ⟨Place.start.after front,
      ⟨(amid front mid phase r).current.offset + Text.byteWidth part,
        (amid front mid phase r).current.line + Text.newlines part⟩, phase, r⟩ := by
  rw [amid, Place.after_append]
  rfl

section

variable (ht : text = front ++ (mid ++ after))
include ht

theorem peek_amid : (amid front mid phase r).peek text = .ok after.head? :=
  peek_eq (by rw [ht, List.append_assoc]) amid_offset

theorem peekNext_amid : (amid front mid phase r).peekNext text = .ok after.tail.head? :=
  peekNext_eq (by rw [ht, List.append_assoc]) amid_offset

theorem lexeme_amid : (amid front mid phase r).lexeme text = .ok mid := by
  have h := Checked.slice_append front mid after
  rw [lexeme, amid, ht]
  simpa using h

/-- The end of the text is reached when no character is left. -/
theorem amid_at_end_iff :
    Text.byteWidth text ≤ (amid front mid phase r).current.offset ↔ after = [] := by
  rw [amid_offset, ht, ← List.append_assoc, Text.byteWidth_append _ after]
  cases after with
  | nil => simp
  | cons c after =>
    have hpos := c.utf8Size_pos
    have hne : ¬ c :: after = [] := List.cons_ne_nil c after
    rw [Text.byteWidth_cons, iff_false_right hne]
    omega

end

section

variable (hsize : Text.byteWidth text < UInt32.size)
include hsize

/-- The characters between two quotes. -/
theorem value_amid {body : List Char} (ht : text = front ++ ('"' :: body ++ ['"'] ++ after)) :
    (amid front ('"' :: body ++ ['"']) phase r).value text = .ok body := by
  -- both quotes take one byte, so the positions beside them lie between characters
  have hquote : Text.byteWidth ['"'] = 1 := rfl
  have hopen : Text.byteWidth ('"' :: body) = 1 + Text.byteWidth body := rfl
  have hstart : (amid front ('"' :: body ++ ['"']) phase r).start.offset = Text.byteWidth front := by
    rw [amid, Place.after_offset, Place.start_offset, Nat.zero_add]
  have hcurrent : (amid front ('"' :: body ++ ['"']) phase r).current.offset - 1 =
      Text.byteWidth front + 1 + Text.byteWidth body := by
    rw [amid_offset]
    simp only [Text.byteWidth_append, hquote, hopen]
    omega
  have hsum : Text.byteWidth front + 1 < UInt64.size := by
    have hwords : UInt32.size + 1 < UInt64.size := by decide
    rw [ht, Text.byteWidth_append] at hsize
    omega
  have hle : 1 ≤ (amid front ('"' :: body ++ ['"']) phase r).current.offset := by
    rw [amid_offset]
    simp only [Text.byteWidth_append, hquote]
    omega
  have hslice := Checked.slice_append (front ++ ['"']) body ('"' :: after)
  have htext : front ++ ['"'] ++ (body ++ '"' :: after) = text := by
    rw [ht]
    simp
  rw [htext, Text.byteWidth_append, hquote] at hslice
  rw [value, hstart, Checked.sum_eq hsum, Checked.difference_eq hle, hcurrent]
  exact hslice

/-- The line of a walker can be counted on. -/
theorem amid_line_lt (ht : text = front ++ (mid ++ after)) :
    (amid front mid phase r).current.line + 1 < UInt64.size := by
  -- a text has no more line feeds than bytes
  have hle (cs : List Char) : Text.newlines cs ≤ Text.byteWidth cs :=
    Nat.le_trans List.count_le_length (Text.length_le_byteWidth cs)
  have hfront := hle front
  have hmid := hle mid
  have hwords : UInt32.size + 2 < UInt64.size := by decide
  rw [ht, Text.byteWidth_append, Text.byteWidth_append] at hsize
  rw [amid, Place.after_line, Place.after_line, Place.start_line]
  omega

theorem move_amid {part : List Char} (ht : text = front ++ (mid ++ (part ++ after)))
    (hp : '\n' ∉ part) : (amid front mid phase r).move (Text.byteWidth part) =
      .ok (amid front (mid ++ part) phase r) := by
  have hbound : (amid front mid phase r).current.offset + Text.byteWidth part < UInt32.size := by
    rw [ht] at hsize
    rw [amid_offset]
    simp only [Text.byteWidth_append] at hsize ⊢
    omega
  have hline : Text.newlines part = 0 := List.count_eq_zero.2 hp
  rw [move_eq (lt_wordSize hbound), amid_append, hline]
  rfl

theorem advance_amid (ht : text = front ++ (mid ++ c :: after)) (hc : c ≠ '\n') :
    (amid front mid phase r).advance text = .ok (some c, amid front (mid ++ [c]) phase r) := by
  have hline : Text.newlines [c] = 0 := List.count_eq_zero.2 (by simpa using hc.symm)
  rw [advance_eq (by rw [ht, List.append_assoc]) amid_offset hsize, amid_append, hline]
  rfl

/-- A line feed that is taken and then counted. -/
theorem advance_newline (ht : text = front ++ (mid ++ '\n' :: after)) :
    ∃ w, (amid front mid phase r).advance text = .ok (some '\n', w) ∧
      w.newline = .ok (amid front (mid ++ ['\n']) phase r) := by
  have hline : (amid front mid phase r).current.line + 1 < UInt64.size := amid_line_lt hsize ht
  refine ⟨_, advance_eq (by rw [ht, List.append_assoc]) amid_offset hsize, ?_⟩
  refine (newline_eq ?_).trans ?_
  · exact hline
  · rw [amid_append]
    rfl

/-- A line feed that is counted and then taken. -/
theorem newline_advance (ht : text = front ++ (mid ++ '\n' :: after)) :
    ∃ w, (amid front mid phase r).newline = .ok w ∧
      w.advance text = .ok (some '\n', amid front (mid ++ ['\n']) phase r) := by
  have hoff : (amid front mid phase r).current.offset = Text.byteWidth (front ++ mid) := amid_offset
  refine ⟨_, newline_eq (amid_line_lt hsize ht), ?_⟩
  refine (advance_eq (by rw [ht, List.append_assoc]) ?_ hsize).trans ?_
  · exact hoff
  · rw [amid_append]
    rfl

theorem accept_amid {expected : Char} (ht : text = front ++ (mid ++ expected :: after))
    (hc : expected ≠ '\n') : (amid front mid phase r).accept text expected =
      .ok (true, amid front (mid ++ [expected]) phase r) := by
  have hmove : (amid front mid phase r).move (Text.byteWidth [expected]) =
      .ok (amid front (mid ++ [expected]) phase r) := move_amid hsize ht (by simpa using hc.symm)
  have hwidth : Text.byteWidth [expected] = expected.utf8Size := rfl
  rw [hwidth] at hmove
  rw [accept, peek_amid ht]
  simp only [bind, Except.bind, List.head?_cons, if_true, hmove]
  rfl

omit hsize in
theorem accept_amid_other {expected : Char} (ht : text = front ++ (mid ++ after))
    (hc : after.head? ≠ some expected) : (amid front mid phase r).accept text expected =
      .ok (false, amid front mid phase r) := by
  rw [accept, peek_amid ht]
  simp only [bind, Except.bind, if_neg hc]
  rfl

theorem skipComment_amid {body : List Char} (ht : text = front ++ (mid ++ (body ++ after)))
    (hb : '\n' ∉ body) (hs : Text.Stops (· ≠ '\n') after) :
    (amid front mid phase r).skipComment text = .ok (amid front (mid ++ body) phase r) :=
  (skipComment_eq_move (by rw [ht, List.append_assoc]) amid_offset hb hs).trans
    (move_amid hsize ht hb)

theorem give_amid (ht : text = front ++ (mid ++ after)) {shape : Shape}
    (hs : shape.literal.Suits shape.kind) : (amid front mid phase r).give text shape =
      .ok (amid front mid .between r,
        Placed.token? ⟨Place.start.after front, ⟨mid, .token shape⟩⟩) := by
  have hbound : (Place.start.after front).offset + Text.byteWidth mid < UInt32.size := by
    rw [ht, Text.byteWidth_append, Text.byteWidth_append] at hsize
    rw [Place.after_offset, Place.start_offset]
    omega
  rw [give, lexeme_amid ht]
  simp only [bind, Except.bind, amid, Shape.token_eq hs hbound, Placed.token?, dif_pos hs]
  rfl

/-- A number ends with the value that its characters write. -/
theorem endNumber_amid (ht : text = front ++ (mid ++ after)) :
    (amid front mid phase r).endNumber text = .ok (amid front mid .between r,
      Placed.token? ⟨Place.start.after front, ⟨mid, .token (.number (.written mid))⟩⟩) := by
  rw [endNumber, lexeme_amid ht]
  exact give_amid hsize ht rfl

/-- A word ends with the kind that its characters spell. -/
theorem endWord_amid (ht : text = front ++ (mid ++ after)) :
    (amid front mid phase r).endWord text = .ok (amid front mid .between r,
      Placed.token? ⟨Place.start.after front,
        ⟨mid, .token (.plain (.ofWord (.ofList mid)))⟩⟩) := by
  rw [endWord, lexeme_amid ht]
  exact give_amid hsize ht (Kind.ofWord_isLiteral _)

variable {p : Char → Bool} {ending : Except Breach (Walker ρ × Option Token)}

/-- A character of the class is taken. -/
theorem takeOr_take (ht : text = front ++ (mid ++ c :: after)) (hp : p c = true) (hc : c ≠ '\n') :
    (amid front mid phase r).takeOr text p ending = .ok (amid front (mid ++ [c]) phase r, none) := by
  rw [takeOr, peek_amid ht]
  simp only [bind, Except.bind, List.head?_cons, Option.any_some, hp, if_true,
    advance_amid hsize ht hc]
  rfl

omit hsize in
/-- Without a character of the class in front, the lexeme ends. -/
theorem takeOr_end (ht : text = front ++ (mid ++ after)) (h : Text.Stops p after) :
    (amid front mid phase r).takeOr text p ending = ending := by
  rw [takeOr, peek_amid ht]
  simp only [bind, Except.bind, h.any_head?, Bool.false_eq_true, if_false]

end

end Walker

end ScriptLexer
