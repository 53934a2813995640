import ScriptLexer.Settings.Problem

/-!
# Reading data from a text

A cursor stands behind the bytes of a text that have been read. Reading either moves it on with a
result or refuses the text, at the cursor or at the byte after it.

* `Cursor.skipBlanks`: past the blanks of data.
* `Cursor.keyword`: past a fixed word.
* `Cursor.string`: past the content of a string and its closing quote.
-/

namespace ScriptLexer

/-- Why a text is refused, and behind how many of its bytes. -/
structure Refusal where
  problem : Problem
  offset : Nat
  deriving DecidableEq

/-- How many bytes of a text have been read, and what is left of it. -/
structure Cursor where
  offset : Nat
  pending : List Char
  deriving DecidableEq

/-- A blank between the parts of data. -/
def isDataBlank (c : Char) : Bool :=
  c == ' ' || c == '\n' || c == '\t' || c == '\r'

/-- The value of a hexadecimal digit of either case. -/
def hexValue? (c : Char) : Option Nat :=
  if c.isDigit then some (c.toNat - '0'.toNat)
  else if 'a' ≤ c ∧ c ≤ 'f' then some (c.toNat - 'a'.toNat + 10)
  else if 'A' ≤ c ∧ c ≤ 'F' then some (c.toNat - 'A'.toNat + 10)
  else none

namespace Cursor

/-- The cursor before a text. -/
def start (text : List Char) : Cursor := ⟨0, text⟩

/-- Refuse the text at the cursor. -/
def refuse {α : Type} (c : Cursor) (problem : Problem) : Except Refusal α :=
  .error ⟨problem, c.offset⟩

/-- Refuse the text behind the next byte, or at its end if there is none. -/
def refuseNext {α : Type} (c : Cursor) (problem : Problem) : Except Refusal α :=
  .error ⟨problem, if c.pending.isEmpty then c.offset else c.offset + 1⟩

/-- Past some characters of one byte each, when `rest` is what they leave. -/
def past (c : Cursor) (count : Nat) (rest : List Char) : Cursor :=
  ⟨c.offset + count, rest⟩

/-- Past the longest run of characters of one byte each that satisfy a test. -/
def skipWhile (c : Cursor) (test : Char → Bool) : Cursor :=
  ⟨c.offset + (c.pending.takeWhile test).length, c.pending.dropWhile test⟩

def skipBlanks (c : Cursor) : Cursor :=
  c.skipWhile isDataBlank

/-- Past the characters of a word. -/
def keyword : List Char → Cursor → Except Refusal Cursor
  | [], c => .ok c
  | w :: ws, c =>
    match c.pending with
    | [] => c.refuse .eofInValue
    | d :: rest => if d = w then keyword ws (c.past 1 rest) else c.refuseNext .expectedIdent

/-- The number that the next four hexadecimal digits write. -/
def hex4 (c : Cursor) : Except Refusal (Nat × Cursor) :=
  if Text.byteWidth (c.pending.take 4) < 4 then
    .error ⟨.eofInString, c.offset + Text.byteWidth c.pending⟩
  else
    match c.pending with
    | d₁ :: d₂ :: d₃ :: d₄ :: rest =>
      match hexValue? d₁, hexValue? d₂, hexValue? d₃, hexValue? d₄ with
      | some n₁, some n₂, some n₃, some n₄ =>
        .ok (((n₁ * 16 + n₂) * 16 + n₃) * 16 + n₄, c.past 4 rest)
      | _, _, _, _ => .error ⟨.invalidEscape, c.offset + 4⟩
    | _ => .error ⟨.invalidEscape, c.offset + 4⟩

/-- Past one character that a second half of a surrogate pair needs. -/
def surrogateMark (mark : Char) (c : Cursor) : Except Refusal Cursor :=
  match c.pending with
  | [] => c.refuse .eofInString
  | d :: rest => if d = mark then .ok (c.past 1 rest) else c.refuseNext .unfinishedSurrogate

/-- The character that an escape by number writes, from behind its `u`. Characters above U+FFFF are
written as two escapes, the halves of a surrogate pair. -/
def numbered (c : Cursor) : Except Refusal (Char × Cursor) := do
  let (high, c) ← c.hex4
  if 0xdc00 ≤ high ∧ high ≤ 0xdfff then c.refuse .loneSurrogate
  else if high < 0xd800 ∨ 0xdfff < high then return (.ofNat high, c)
  else
    let c ← c.surrogateMark '\\'
    let c ← c.surrogateMark 'u'
    let (low, c) ← c.hex4
    if 0xdc00 ≤ low ∧ low ≤ 0xdfff then
      return (.ofNat ((high - 0xd800) * 0x400 + (low - 0xdc00) + 0x10000), c)
    else c.refuse .loneSurrogate

/-- The character that a letter stands for behind a backslash. -/
def letterEscape? : Char → Option Char
  | '"' => some '"'
  | '\\' => some '\\'
  | '/' => some '/'
  | 'b' => some '\x08'
  | 'f' => some '\x0c'
  | 'n' => some '\n'
  | 'r' => some '\r'
  | 't' => some '\t'
  | _ => none

/-- The character that an escape writes, from behind its backslash. -/
def escaped (c : Cursor) : Except Refusal (Char × Cursor) :=
  match c.pending with
  | [] => c.refuse .eofInString
  | letter :: rest =>
    if letter = 'u' then (c.past 1 rest).numbered
    else
      match letterEscape? letter with
      | some d => .ok (d, c.past 1 rest)
      | none => c.refuseNext .invalidEscape

theorem hex4_le {c c' : Cursor} {n : Nat} (h : c.hex4 = .ok (n, c')) :
    c'.pending.length ≤ c.pending.length := by
  unfold hex4 at h
  split at h
  · cases h
  split at h
  next rest hp =>
    split at h
    · cases h
      simp only [past, hp, List.length_cons]
      omega
    · cases h
  · cases h

theorem surrogateMark_le {c c' : Cursor} {mark : Char} (h : c.surrogateMark mark = .ok c') :
    c'.pending.length ≤ c.pending.length := by
  unfold surrogateMark at h
  split at h
  · cases h
  next hp =>
    split at h
    · cases h
      simp [past, hp]
    · cases h

theorem numbered_le {c c' : Cursor} {d : Char} (h : c.numbered = .ok (d, c')) :
    c'.pending.length ≤ c.pending.length := by
  unfold numbered at h
  cases h₁ : c.hex4 with
  | error e => simp [h₁, bind, Except.bind] at h
  | ok found =>
    obtain ⟨high, c₁⟩ := found
    have l₁ := hex4_le h₁
    simp only [h₁, bind, Except.bind] at h
    split at h
    · cases h
    split at h
    · simp only [pure, Except.pure, Except.ok.injEq, Prod.mk.injEq] at h
      rw [← h.2]
      exact l₁
    cases h₂ : c₁.surrogateMark '\\' with
    | error e => simp [h₂] at h
    | ok c₂ =>
      cases h₃ : c₂.surrogateMark 'u' with
      | error e => simp [h₂, h₃] at h
      | ok c₃ =>
        cases h₄ : c₃.hex4 with
        | error e => simp [h₂, h₃, h₄] at h
        | ok found =>
          obtain ⟨low, c₄⟩ := found
          have l₂ := surrogateMark_le h₂
          have l₃ := surrogateMark_le h₃
          have l₄ := hex4_le h₄
          simp only [h₂, h₃, h₄] at h
          split at h
          · simp only [pure, Except.pure, Except.ok.injEq, Prod.mk.injEq] at h
            rw [← h.2]
            omega
          · cases h

/-- Reading an escape moves on. -/
theorem escaped_lt {c c' : Cursor} {d : Char} (h : c.escaped = .ok (d, c')) :
    c'.pending.length < c.pending.length := by
  unfold escaped at h
  split at h
  · cases h
  next rest hp =>
    rw [hp]
    split at h
    · exact Nat.lt_succ_of_le (numbered_le h)
    split at h
    · cases h
      exact Nat.lt_succ_self _
    · cases h

/-- The content of a string from behind its opening quote, onto characters already read, which
stand in reverse. -/
def stringOnto (read : List Char) (c : Cursor) : Except Refusal (String × Cursor) :=
  match hp : c.pending with
  | [] => c.refuse .eofInString
  | d :: rest =>
    if d = '"' then .ok (String.ofList read.reverse, c.past 1 rest)
    else if d = '\\' then
      match he : (c.past 1 rest).escaped with
      | .error refusal => .error refusal
      | .ok (d, c') =>
        have : c'.pending.length < c.pending.length := by
          have := escaped_lt he
          simp only [past] at this
          simp only [hp, List.length_cons]
          omega
        stringOnto (d :: read) c'
    else if d.toNat < 0x20 then c.refuseNext .controlCharacter
    else stringOnto (d :: read) ⟨c.offset + d.utf8Size, rest⟩
termination_by c.pending.length
decreasing_by all_goals simp_all

/-- The content of a string from behind its opening quote, with the cursor behind its closing
quote. -/
def string (c : Cursor) : Except Refusal (String × Cursor) :=
  stringOnto [] c

end Cursor

end ScriptLexer
