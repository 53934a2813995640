import ScriptLexer.Proofs.Reads
import ScriptLexer.Settings.Numeral

/-!
# The grammar of data

Data is null, a truth value, a number, a string, a list, or an object of named values, and any
blanks may stand between its parts. The grammar says which texts spell which data; it reads nothing.
Each of its relations ties a text to what stands at its front and to the rest behind that, so a rule
never looks past the part that it is about.

* `Json`: data, with its numbers as they are written.
* `SpellsString`, `Numeral.Written.Spells`: strings with their escapes, and numbers.
* `Json.Spells`: the texts of data. `Json.Text`: with blanks around them.
* `Json.Spells.exists_cons`: which character data begins with.
* `Ends`: where a number cannot go on.
-/

namespace ScriptLexer

/-! ## Blanks -/

/-- A text begins with some blanks, or with none. -/
inductive Blanks : List Char → List Char → Prop
  | none {text : List Char} : Blanks text text
  | more {d : Char} {text rest : List Char} (hd : isDataBlank d = true) (h : Blanks text rest) :
    Blanks (d :: text) rest

/-! ## Strings -/

/-- A text begins with four hexadecimal digits of either case that write a number. -/
inductive SpellsHex : List Char → Nat → List Char → Prop
  | four {d₁ d₂ d₃ d₄ : Char} {n₁ n₂ n₃ n₄ : Nat} {rest : List Char}
      (h₁ : hexValue? d₁ = some n₁) (h₂ : hexValue? d₂ = some n₂) (h₃ : hexValue? d₃ = some n₃)
      (h₄ : hexValue? d₄ = some n₄) :
    SpellsHex (d₁ :: d₂ :: d₃ :: d₄ :: rest) (((n₁ * 16 + n₂) * 16 + n₃) * 16 + n₄) rest

/-- The first halves of surrogate pairs. -/
def IsHighHalf (n : Nat) : Prop := 0xd800 ≤ n ∧ n < 0xdc00

/-- The second halves of surrogate pairs. -/
def IsLowHalf (n : Nat) : Prop := 0xdc00 ≤ n ∧ n ≤ 0xdfff

/-- A text begins with a character of a string: the character itself, or one of the escapes by
letter and by number. -/
inductive SpellsChar : List Char → Char → List Char → Prop
  | plain {c : Char} {rest : List Char} (hquote : c ≠ '"') (hbackslash : c ≠ '\\')
      (hcontrol : 0x20 ≤ c.toNat) : SpellsChar (c :: rest) c rest
  | letter {letter c : Char} {rest : List Char} (h : Cursor.letterEscape? letter = some c) :
    SpellsChar ('\\' :: letter :: rest) c rest
  | number {text rest : List Char} {n : Nat} (h : SpellsHex text n rest) (hhigh : ¬ IsHighHalf n)
      (hlow : ¬ IsLowHalf n) : SpellsChar ('\\' :: 'u' :: text) (.ofNat n) rest
  | pair {text middle rest : List Char} {high low : Nat}
      (h : SpellsHex text high ('\\' :: 'u' :: middle)) (hhigh : IsHighHalf high)
      (h' : SpellsHex middle low rest) (hlow : IsLowHalf low) :
    SpellsChar ('\\' :: 'u' :: text)
      (.ofNat ((high - 0xd800) * 0x400 + (low - 0xdc00) + 0x10000)) rest

/-- A text begins with the characters of a string. -/
inductive SpellsChars : List Char → List Char → List Char → Prop
  | nil {text : List Char} : SpellsChars text [] text
  | cons {text middle rest : List Char} {c : Char} {cs : List Char} (h : SpellsChar text c middle)
      (hmore : SpellsChars middle cs rest) : SpellsChars text (c :: cs) rest

/-- A text begins with a string between its quotes. -/
inductive SpellsString : List Char → String → List Char → Prop
  | quoted {text rest : List Char} {content : String}
      (h : SpellsChars text content.toList ('"' :: rest)) : SpellsString ('"' :: text) content rest

/-! ## Numbers -/

/-- A text begins with some digits, at least one. -/
structure Digits (text digits rest : List Char) : Prop where
  append : text = digits ++ rest
  ne_nil : digits ≠ []
  isDigit : ∀ d ∈ digits, d.isDigit = true

namespace Numeral

inductive SpellsMinus : List Char → Bool → List Char → Prop
  | none {text : List Char} : SpellsMinus text false text
  | minus {text : List Char} : SpellsMinus ('-' :: text) true text

/-- The digits before the point: a zero alone, or digits that begin with another one. -/
inductive SpellsWhole : List Char → List Char → List Char → Prop
  | zero {rest : List Char} : SpellsWhole ('0' :: rest) ['0'] rest
  | digits {text digits rest : List Char} (h : Digits text digits rest)
      (hzero : digits.head? ≠ some '0') : SpellsWhole text digits rest

inductive SpellsFraction : List Char → Option (List Char) → List Char → Prop
  | none {text : List Char} : SpellsFraction text none text
  | point {text digits rest : List Char} (h : Digits text digits rest) :
    SpellsFraction ('.' :: text) (some digits) rest

inductive SpellsSign : List Char → Bool → List Char → Prop
  | none {text : List Char} : SpellsSign text false text
  | plus {text : List Char} : SpellsSign ('+' :: text) false text
  | minus {text : List Char} : SpellsSign ('-' :: text) true text

inductive SpellsExponent : List Char → Option (Bool × List Char) → List Char → Prop
  | none {text : List Char} : SpellsExponent text none text
  | letter {mark : Char} {text middle digits rest : List Char} {down : Bool}
      (hmark : mark = 'e' ∨ mark = 'E') (hsign : SpellsSign text down middle)
      (h : Digits middle digits rest) : SpellsExponent (mark :: text) (some (down, digits)) rest

/-- A text begins with a number. -/
inductive Written.Spells : List Char → Written → List Char → Prop
  | parts {text whole fraction exponent rest : List Char} {w : Written}
      (hminus : SpellsMinus text w.negative whole) (hwhole : SpellsWhole whole w.whole fraction)
      (hfraction : SpellsFraction fraction w.fraction exponent)
      (hexponent : SpellsExponent exponent w.exponent rest) : Spells text w rest

end Numeral

/-! ## Data -/

/-- Data. -/
inductive Json
  | null
  | boolean (value : Bool)
  | number (written : Numeral.Written)
  | string (text : String)
  | array (elements : List Json)
  | object (members : List (String × Json))

/-- What stands in front of an element or a member: a comma, unless it is the first, and blanks. -/
inductive Separator : Bool → List Char → List Char → Prop
  | first {text rest : List Char} (h : Blanks text rest) : Separator true text rest
  | later {text middle rest : List Char} (h : Blanks text (',' :: middle))
      (h' : Blanks middle rest) : Separator false text rest

mutual

/-- A text begins with data. -/
inductive Json.Spells : List Char → Json → List Char → Prop
  | null {rest : List Char} : Spells ('n' :: 'u' :: 'l' :: 'l' :: rest) .null rest
  | isTrue {rest : List Char} : Spells ('t' :: 'r' :: 'u' :: 'e' :: rest) (.boolean true) rest
  | isFalse {rest : List Char} :
    Spells ('f' :: 'a' :: 'l' :: 's' :: 'e' :: rest) (.boolean false) rest
  | number {text rest : List Char} {w : Numeral.Written} (h : w.Spells text rest) :
    Spells text (.number w) rest
  | string {text rest : List Char} {content : String} (h : SpellsString text content rest) :
    Spells text (.string content) rest
  | array {text rest : List Char} {elements : List Json}
      (h : SpellsElements true text elements rest) : Spells ('[' :: text) (.array elements) rest
  | object {text rest : List Char} {members : List (String × Json)}
      (h : SpellsMembers true text members rest) : Spells ('\x7b' :: text) (.object members) rest

/-- A text begins with the elements that are left of a list and its closing bracket. -/
inductive Json.SpellsElements : Bool → List Char → List Json → List Char → Prop
  | close {first : Bool} {text rest : List Char} (h : Blanks text (']' :: rest)) :
    SpellsElements first text [] rest
  | element {first : Bool} {text value more rest : List Char} {v : Json} {vs : List Json}
      (hbefore : Separator first text value) (hvalue : Spells value v more)
      (hmore : SpellsElements false more vs rest) : SpellsElements first text (v :: vs) rest

/-- A text begins with the members that are left of an object and its closing brace. -/
inductive Json.SpellsMembers : Bool → List Char → List (String × Json) → List Char → Prop
  | close {first : Bool} {text rest : List Char} (h : Blanks text ('\x7d' :: rest)) :
    SpellsMembers first text [] rest
  | member {first : Bool} {text key colon blanks value more rest : List Char} {name : String}
      {v : Json} {members : List (String × Json)} (hbefore : Separator first text key)
      (hkey : SpellsString key name colon) (hcolon : Blanks colon (':' :: blanks))
      (hblanks : Blanks blanks value) (hvalue : Spells value v more)
      (hmore : SpellsMembers false more members rest) :
    SpellsMembers first text ((name, v) :: members) rest

end

/-- A text is data with blanks around it. -/
def Json.Text (v : Json) (text : List Char) : Prop :=
  ∃ value rest, Blanks text value ∧ Spells value v rest ∧ Blanks rest []

/-- A character that needs no escape. -/
def isPlain (c : Char) : Bool :=
  c != '"' && c != '\\' && decide (0x20 ≤ c.toNat)

/-- Characters that need no escape spell themselves. -/
theorem SpellsChars.plain (cs : List Char) {rest : List Char} (h : cs.all isPlain = true) :
    SpellsChars (cs ++ rest) cs rest := by
  induction cs with
  | nil => exact .nil
  | cons c cs ih =>
    rw [List.all_cons, Bool.and_eq_true] at h
    obtain ⟨hc, hcs⟩ := h
    simp only [isPlain, Bool.and_eq_true, bne_iff_ne, decide_eq_true_eq] at hc
    obtain ⟨⟨hquote, hbackslash⟩, hcontrol⟩ := hc
    exact .cons (.plain hquote hbackslash hcontrol) (ih hcs)

/-! ## How data begins -/

/-- There are no blanks in front of a character that is none. -/
theorem Blanks.eq_of_cons {d : Char} {text rest : List Char} (h : Blanks (d :: text) rest)
    (hd : isDataBlank d = false) : rest = d :: text := by
  cases h with
  | none => rfl
  | more hblank =>
    rw [hd] at hblank
    cases hblank

theorem Digits.exists_cons {text digits rest : List Char} (h : Digits text digits rest) :
    ∃ d more, text = d :: more ∧ d.isDigit = true := by
  obtain ⟨d, ds, hdigits⟩ := List.exists_cons_of_ne_nil h.ne_nil
  have hd : d.isDigit = true := h.isDigit d (by rw [hdigits]; exact List.mem_cons_self)
  exact ⟨d, ds ++ rest, by rw [h.append, hdigits, List.cons_append], hd⟩

theorem Numeral.SpellsWhole.exists_cons {text whole rest : List Char}
    (h : SpellsWhole text whole rest) : ∃ d more, text = d :: more ∧ d.isDigit = true := by
  cases h with
  | zero => exact ⟨'0', rest, rfl, by decide⟩
  | digits h => exact h.exists_cons

/-- A number begins with its sign or a digit. -/
theorem Numeral.Written.Spells.exists_cons {text rest : List Char} {w : Written}
    (h : w.Spells text rest) : ∃ d more, text = d :: more ∧ (d = '-' ∨ d.isDigit = true) := by
  obtain ⟨hminus, hwhole, -, -⟩ := h
  generalize w.negative = negative at hminus
  cases hminus with
  | none =>
    obtain ⟨d, more, htext, hd⟩ := hwhole.exists_cons
    exact ⟨d, more, htext, .inr hd⟩
  | minus => exact ⟨'-', _, rfl, .inl rfl⟩

/-- A character that begins data, and nothing else around it. -/
def Opens (d : Char) : Prop :=
  isDataBlank d = false ∧ d ≠ ',' ∧ d ≠ ':' ∧ d ≠ ']' ∧ d ≠ '\x7d'

theorem opens_of_number {d : Char} (h : d = '-' ∨ d.isDigit = true) : Opens d := by
  rcases h with rfl | hd
  · unfold Opens
    decide
  · refine ⟨?_, ?_, ?_, ?_, ?_⟩
    · unfold isDataBlank
      simp only [Bool.or_eq_false_iff, beq_eq_false_iff_ne]
      refine ⟨⟨⟨?_, ?_⟩, ?_⟩, ?_⟩ <;> (rintro rfl; revert hd; decide)
    all_goals
      rintro rfl
      revert hd
      decide

/-- Data begins with a character that nothing around data begins with. -/
theorem Json.Spells.exists_cons {text rest : List Char} {v : Json} (h : Spells text v rest) :
    ∃ d more, text = d :: more ∧ Opens d := by
  cases h with
  | number h =>
    obtain ⟨d, more, htext, hd⟩ := h.exists_cons
    exact ⟨d, more, htext, opens_of_number hd⟩
  | string h =>
    obtain ⟨h⟩ := h
    exact ⟨'"', _, rfl, by unfold Opens; decide⟩
  | _ => exact ⟨_, _, rfl, by unfold Opens; decide⟩

/-- Only an object begins with a brace. -/
theorem Json.Spells.exists_members {text rest : List Char} {v : Json}
    (h : Spells ('\x7b' :: text) v rest) :
    ∃ members, v = .object members ∧ SpellsMembers true text members rest := by
  cases h with
  | number h =>
    obtain ⟨_, _, hcons, hd⟩ := h.exists_cons
    cases hcons
    exact absurd hd (by decide)
  | string h => cases h
  | object h => exact ⟨_, rfl, h⟩

/-! ## Where a number ends -/

/-- A character that a number can go on with. -/
def isNumberPart (d : Char) : Bool :=
  d.isDigit || d == '.' || d == 'e' || d == 'E'

/-- No number goes on with this text. -/
def Ends (text : List Char) : Prop := Text.Stops isNumberPart text

theorem Ends.isDigit {text : List Char} (h : Ends text) : Text.Stops Char.isDigit text := by
  intro d hd
  have hpart := h d hd
  simp only [isNumberPart, Bool.or_eq_false_iff] at hpart
  exact hpart.1.1.1

theorem Ends.point {text : List Char} (h : Ends text) : Text.Stops (· == '.') text := by
  intro d hd
  have hpart := h d hd
  simp only [isNumberPart, Bool.or_eq_false_iff] at hpart
  exact hpart.1.1.2

/-- No number goes on with a blank. -/
theorem Blanks.ends {text rest : List Char} (h : Blanks text rest) (hrest : Ends rest) :
    Ends text := by
  cases h with
  | none => exact hrest
  | more hd =>
    refine (Text.stops_cons _ _ _).2 ?_
    simp only [isDataBlank, Bool.or_eq_true, beq_iff_eq] at hd
    rcases hd with ((rfl | rfl) | rfl) | rfl <;> decide

theorem Json.SpellsElements.ends {text rest : List Char} {elements : List Json}
    (h : SpellsElements false text elements rest) : Ends text := by
  cases h with
  | close h => exact h.ends ((Text.stops_cons _ _ _).2 (by decide))
  | element hbefore =>
    cases hbefore with
    | later h => exact h.ends ((Text.stops_cons _ _ _).2 (by decide))

theorem Json.SpellsMembers.ends {text rest : List Char} {members : List (String × Json)}
    (h : SpellsMembers false text members rest) : Ends text := by
  cases h with
  | close h => exact h.ends ((Text.stops_cons _ _ _).2 (by decide))
  | member hbefore =>
    cases hbefore with
    | later h => exact h.ends ((Text.stops_cons _ _ _).2 (by decide))

end ScriptLexer
