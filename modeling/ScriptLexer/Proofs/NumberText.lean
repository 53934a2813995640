import Mathlib.Data.List.TakeWhile
import ScriptLexer.Proofs.Grammar
import ScriptLexer.Proofs.Rounding

/-!
# Floating-point numbers read from text

The general text form of a number has a sign, digits with a point before, among or behind them, and
an exponent; what is not finite is written as a word. Letters are of either case. Every number of a
scan has this form, so reading its text never fails, and what is read is the value of the scan.

* `Decimal.ofText?`, `Binary64.ofText?`: reading the general form.
* `Text.positional`: the number that digits with a point among them write.
* `LexicalClass.ofText?_number`: the numbers of a scan are read to their values.
* `LexicalClass.numeral_rounds`: those values are correctly rounded.
-/

namespace ScriptLexer

/-! ## The general form -/

/-- Whether a text begins with a minus sign, and what follows its sign if it has one. -/
def Text.takeSign : List Char → Bool × List Char
  | '+' :: rest => (false, rest)
  | '-' :: rest => (true, rest)
  | text => (false, text)

/-- The exponent that the end of a number writes, zero where nothing is written. -/
def Decimal.exponent? : List Char → Option Int
  | [] => some 0
  | mark :: rest =>
    let (negative, digits) := Text.takeSign rest
    if mark.toLower = 'e' ∧ digits ≠ [] ∧ digits.all Char.isDigit then
      let size : Int := Nat.ofDigitChars 10 digits 0
      some (if negative then -size else size)
    else none

/-- The decimal that a text without a sign writes: digits on one side of a point at least, and an
exponent. -/
def Decimal.ofText? (text : List Char) : Option Decimal :=
  let whole := text.takeWhile Char.isDigit
  let (fraction, rest) := match text.dropWhile Char.isDigit with
    | '.' :: rest => (rest.takeWhile Char.isDigit, rest.dropWhile Char.isDigit)
    | rest => ([], rest)
  if whole = [] ∧ fraction = [] then none
  else (exponent? rest).map fun e =>
    ⟨Nat.ofDigitChars 10 (whole ++ fraction) 0, e - fraction.length⟩

/-- The magnitude bits of the not-a-number that is written as a word. -/
def Binary64.nanBits : Nat := 0x7ff8000000000000

/-- The number that a text writes, rounded to the nearest. -/
def Binary64.ofText? (s : String) : Option Binary64 :=
  let (negative, text) := Text.takeSign s.toList
  let word := String.ofList (text.map Char.toLower)
  if word = "inf" ∨ word = "infinity" then some (ofMagnitude negative infinityBits)
  else if word = "nan" then some (ofMagnitude negative nanBits)
  else (Decimal.ofText? text).map fun d => ofMagnitude negative d.magnitude

/-- A text whose first character is a digit begins with no sign and writes no word. -/
theorem Binary64.ofText?_digit {c : Char} (hc : c.isDigit = true) (cs : List Char) :
    ofText? (.ofList (c :: cs)) = (Decimal.ofText? (c :: cs)).map Decimal.toBinary64 := by
  have hsign : Text.takeSign (c :: cs) = (false, c :: cs) := by
    unfold Text.takeSign
    split
    next h => cases h; exact absurd hc (by decide)
    next h => cases h; exact absurd hc (by decide)
    next => rfl
  have hlower : c.toLower = c := by
    have hle := (isDigit_iff.1 hc).2
    unfold Char.toLower
    rw [dif_neg]
    rintro ⟨hA, -⟩
    exact absurd (UInt32.le_trans hA (Char.le_def.1 hle)) (by decide)
  have hword {first : Char} {more : List Char} (h : first.isDigit = false) :
      String.ofList ((c :: cs).map Char.toLower) ≠ .ofList (first :: more) := by
    intro heq
    have hhead := (List.cons.inj (String.ofList_injective heq)).1
    rw [hlower] at hhead
    rw [← hhead, hc] at h
    cases h
  rw [ofText?, String.toList_ofList, hsign]
  dsimp only
  rw [if_neg, if_neg]
  · rfl
  · exact @hword 'n' ['a', 'n'] rfl
  · rintro (h | h)
    · exact @hword 'i' ['n', 'f'] rfl h
    · exact @hword 'i' ['n', 'f', 'i', 'n', 'i', 't', 'y'] rfl h

/-! ## Digits of natural numbers -/

theorem Decimal.isDigit_of_mem_numeral {n : Nat} : ∀ c ∈ numeral n, c.isDigit = true :=
  fun _ => Nat.isDigit_of_mem_toDigits (by decide) (by decide)

theorem Decimal.ofDigitChars_numeral (n : Nat) : Nat.ofDigitChars 10 (numeral n) 0 = n :=
  Nat.ofDigitChars_ten_toDigits

/-! ## The numbers of a scan -/

/-- The number that digits with a point among them write: that of all digits in a row, over a power
of ten for each one behind the point. -/
def Text.positional (w : List Char) : ℚ :=
  Nat.ofDigitChars 10 (w.filter Char.isDigit) 0 / 10 ^ ((w.dropWhile (· ≠ '.')).drop 1).length

namespace LexicalClass

variable {w : List Char}

/-- The decimal that a number of a scan writes. -/
theorem ofText?_of_mem_number (h : w ∈ number.language) :
    ∃ d, Decimal.ofText? w = some d ∧ numeral w = d.toBinary64 ∧ d.value = Text.positional w := by
  rcases mem_number.1 h with ⟨c, ds, hd, rfl⟩ | ⟨c, ds, d, es, hd, he, rfl⟩
  · have hpoint := Text.forall_ne_of_notMem (point_notMem hd)
    refine ⟨⟨Nat.ofDigitChars 10 (c :: ds) 0, 0⟩, ?_, ?_, ?_⟩
    · rw [Decimal.ofText?, List.takeWhile_eq_self_iff.2 hd, List.dropWhile_eq_nil_iff.2 hd]
      simp [Decimal.exponent?]
    · simp [numeral_whole hd, Lexeme.numberValue]
    · rw [Text.positional, List.dropWhile_eq_nil_iff.2 hpoint, List.filter_eq_self.2 hd]
      simp [Decimal.value]
  · have hpoint : Text.Stops Char.isDigit ('.' :: d :: es) := by simp
    have hbehind : Text.Stops (· ≠ '.') ('.' :: d :: es) := by simp
    refine ⟨⟨Nat.ofDigitChars 10 (c :: ds ++ d :: es) 0, -(d :: es).length⟩, ?_,
      numeral_fraction hd, ?_⟩
    · simp only [Decimal.ofText?, Text.takeWhile_run hd hpoint, Text.dropWhile_run hd hpoint,
        List.takeWhile_eq_self_iff.2 he, List.dropWhile_eq_nil_iff.2 he]
      simp [Decimal.exponent?]
    · rw [Text.positional,
        Text.dropWhile_run (Text.forall_ne_of_notMem (point_notMem hd)) hbehind, List.filter_append,
        List.filter_eq_self.2 hd, List.filter_cons_of_neg (by decide), List.filter_eq_self.2 he,
        List.drop_one, List.tail_cons, Decimal.value, zpow_neg, zpow_natCast, div_eq_mul_inv]

/-- **The text of a number of a scan is read to its value**, so reading it never fails. -/
theorem ofText?_number (h : w ∈ number.language) :
    Binary64.ofText? (.ofList w) = some (numeral w) := by
  obtain ⟨d, hd, hvalue, -⟩ := ofText?_of_mem_number h
  obtain ⟨c, cs, hc, rfl⟩ : ∃ c cs, c.isDigit = true ∧ w = c :: cs := by
    rcases mem_number.1 h with ⟨c, ds, hds, rfl⟩ | ⟨c, ds, _, _, hds, -, rfl⟩
    · exact ⟨c, ds, hds c List.mem_cons_self, rfl⟩
    · exact ⟨c, _, hds c List.mem_cons_self, rfl⟩
  rw [Binary64.ofText?_digit hc, hd, hvalue, Option.map_some]

/-- **The value of a number of a scan is correctly rounded.** -/
theorem numeral_rounds (h : w ∈ number.language) : (numeral w).Rounds (Text.positional w) := by
  obtain ⟨d, -, hvalue, hpos⟩ := ofText?_of_mem_number h
  rw [hvalue, ← hpos]
  exact d.toBinary64_rounds

end LexicalClass

end ScriptLexer
