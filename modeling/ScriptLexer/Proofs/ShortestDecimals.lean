import ScriptLexer.Proofs.NumberText

/-!
# The shortest decimal of a number reads back

The search for the shortest decimal takes one only if it reads as the number, and has all digits of
the number to fall back on. Written with a point where the power of ten puts it, every decimal is a
number of the scan, of the same value. So the plain form of a finite number reads as that number.

* `Binary64.rounds_value`: a finite number is what its own value rounds to.
* `Decimal.toBinary64_shortest`: the shortest decimal of a number reads as it.
* `Decimal.PointedAs`: digits with a point among them or behind them, and what they write.
* `LexicalClass.numeral_of_pointedAs`: the value that a scan reads in a written decimal.
* `Binary64.plain_mem`, `Binary64.numeral_plain`: the plain form of a finite number.
-/

namespace ScriptLexer

/-! ## A number and its value -/

namespace Binary64

variable {x : Binary64}

theorem value_lt_overflow (hfin : x.isFinite = true) : x.value < overflow := by
  have hm := magnitude_lt hfin
  have hunits : 2 * x.units < unitsOf (infinityBits - 1) + unitsOf infinityBits := by
    have hlast : x.units ≤ unitsOf (infinityBits - 1) :=
      unitsOf_strictMono.monotone (Nat.le_sub_one_of_lt hm)
    have hnext : x.units < unitsOf infinityBits := unitsOf_strictMono hm
    omega
  have hcast : (2 : ℚ) * x.units < 2 * (overflow * unitsPerOne) := by
    rw [two_mul_overflow]
    exact_mod_cast hunits
  rw [value, div_lt_iff₀ unitsPerOne_pos]
  linarith

/-- **A finite number is what its own value rounds to**, if it has no sign. -/
theorem rounds_value (hneg : x.isNegative = false) (hfin : x.isFinite = true) :
    x.Rounds x.value where
  positive := hneg
  finite_iff := iff_of_true hfin (value_lt_overflow hfin)
  infinite h := by rw [hfin] at h; cases h
  nearest _ y _ := by rw [sub_self, abs_zero]; exact abs_nonneg _
  even _ y _ hne heq := by
    rw [sub_self, abs_zero, eq_comm, abs_eq_zero, sub_eq_zero] at heq
    exact absurd heq.symm hne

theorem ofMagnitude_magnitude (hneg : x.isNegative = false) (hfin : x.isFinite = true) :
    ofMagnitude false x.magnitude = x := by
  have hsmall : x.magnitude < signBit := Nat.lt_trans (magnitude_lt hfin) (by decide)
  exact eq_of_magnitude (isNegative_ofMagnitude hsmall) hneg (magnitude_ofMagnitude hsmall)

end Binary64

namespace Decimal

/-- Decimals of the same value read as the same number. -/
theorem toBinary64_congr {d d' : Decimal} (h : d.value = d'.value) :
    d.toBinary64 = d'.toBinary64 := by
  have hd := d.toBinary64_rounds
  rw [h] at hd
  exact hd.unique d'.toBinary64_rounds

/-! ## The search for the shortest decimal -/

theorem value_exact (m : Nat) : (exact m).value = Binary64.unitsOf m / Binary64.unitsPerOne := by
  have hexponent : (-1074 : ℤ) = -((1074 : ℕ) : ℤ) := rfl
  have hten : (10 : ℚ) = 5 * 2 := by norm_num
  unfold value exact
  rw [Binary64.cast_unitsPerOne, hexponent, hten]
  generalize 1074 = n
  rw [Nat.pow_eq, zpow_neg, zpow_natCast, mul_pow]
  push_cast
  field_simp

theorem magnitude_toBinary64 (d : Decimal) : d.toBinary64.magnitude = d.magnitude := by
  have hsmall : d.magnitude < Binary64.signBit := by
    unfold magnitude
    split <;> exact Binary64.roundUnits_lt_signBit _ _
  exact Binary64.magnitude_ofMagnitude hsmall

/-- All digits of a finite number read as it. -/
theorem magnitude_exact {x : Binary64} (hneg : x.isNegative = false) (hfin : x.isFinite = true) :
    (exact x.magnitude).magnitude = x.magnitude := by
  have hrounds := (exact x.magnitude).toBinary64_rounds
  rw [value_exact] at hrounds
  rw [← magnitude_toBinary64, hrounds.unique (Binary64.rounds_value hneg hfin)]

variable {tie : Tie} {m : Nat} {e : Int}

/-- A multiple of a power of ten is taken only if it reads back. -/
theorem magnitude_of_multiple? {digits : Nat} (h : multiple? tie m e = some digits) :
    (⟨digits, e⟩ : Decimal).magnitude = m := by
  unfold multiple? at h
  dsimp only at h
  split at h
  case isTrue hlow =>
    cases h
    exact hlow.1
  case isFalse =>
    split at h
    case isTrue hhigh =>
      cases h
      exact hhigh
    case isFalse => cases h

theorem magnitude_search (hexact : (exact m).magnitude = m) (steps : Nat) :
    (search tie m steps e).magnitude = m := by
  induction steps generalizing e with
  | zero => exact hexact
  | succ steps ih =>
    unfold search
    split
    case h_1 digits h => exact magnitude_of_multiple? h
    case h_2 => exact ih

/-- **The shortest decimal of a finite number reads as it.** -/
theorem toBinary64_shortest {x : Binary64} (hneg : x.isNegative = false)
    (hfin : x.isFinite = true) : (shortest tie x.magnitude).toBinary64 = x := by
  rw [toBinary64, shortest, magnitude_search (magnitude_exact hneg hfin),
    Binary64.ofMagnitude_magnitude hneg hfin]

/-! ## Digits with a point -/

/-- A text of digits writes a decimal: all of them in a row, or with a point in front of as many as
the power of ten has. -/
inductive PointedAs (d : Decimal) : List Char → Prop
  | whole {ds : List Char} (hd : ∀ c ∈ ds, c.isDigit = true) (hne : ds ≠ [])
      (hvalue : (Nat.ofDigitChars 10 ds 0 : ℚ) = d.value) : PointedAs d ds
  | fraction {ds es : List Char} (hd : ∀ c ∈ ds, c.isDigit = true) (hds : ds ≠ [])
      (he : ∀ c ∈ es, c.isDigit = true) (hes : es ≠ [])
      (hdigits : Nat.ofDigitChars 10 (ds ++ es) 0 = d.digits) (hplaces : d.exponent = -es.length) :
      PointedAs d (ds ++ '.' :: es)

theorem isDigit_of_mem_zeros {n : Nat} : ∀ c ∈ List.replicate n '0', c.isDigit = true :=
  fun _ h => by rw [List.eq_of_mem_replicate h]; rfl

/-- **Every decimal is written as digits with a point.** -/
theorem pointedAs_positional (d : Decimal) : d.PointedAs d.positional := by
  have hnil : numeral d.digits ≠ [] := Nat.toDigits_ne_nil
  have hpos := List.length_pos_iff.2 hnil
  unfold positional
  dsimp only
  split
  case isTrue h =>
    obtain ⟨n, hn⟩ := Int.eq_ofNat_of_zero_le h
    refine .whole (List.forall_mem_append.2 ⟨isDigit_of_mem_numeral, isDigit_of_mem_zeros⟩)
      (by simp [hnil]) ?_
    rw [Nat.ofDigitChars_append, ofDigitChars_numeral, Nat.ofDigitChars_replicate_zero, value, hn,
      Int.toNat_natCast, zpow_natCast]
    push_cast
    ring
  case isFalse h =>
    obtain ⟨n, hn⟩ := Int.eq_ofNat_of_zero_le (show 0 ≤ -d.exponent by omega)
    rw [hn, Int.toNat_natCast]
    split
    case isTrue hlt =>
      refine .fraction (fun c hc => isDigit_of_mem_numeral c (List.mem_of_mem_take hc)) ?_
        (fun c hc => isDigit_of_mem_numeral c (List.mem_of_mem_drop hc)) ?_ ?_ ?_
      · rw [← List.length_pos_iff, List.length_take]
        omega
      · rw [← List.length_pos_iff, List.length_drop]
        omega
      · rw [List.take_append_drop, ofDigitChars_numeral]
      · rw [List.length_drop]
        omega
    case isFalse hge =>
      have hform (zeros : List Char) : '0' :: '.' :: zeros ++ numeral d.digits =
          ['0'] ++ '.' :: (zeros ++ numeral d.digits) := rfl
      rw [hform]
      refine .fraction (List.forall_mem_singleton.2 rfl) (List.cons_ne_nil _ _)
        (List.forall_mem_append.2 ⟨isDigit_of_mem_zeros, isDigit_of_mem_numeral⟩) (by simp [hnil])
        ?_ ?_
      · -- zeros in front do not count
        have hzeros (k : Nat) : Nat.ofDigitChars 10 (List.replicate k '0') 0 = 0 := by
          rw [Nat.ofDigitChars_replicate_zero, Nat.mul_zero]
        have hfirst : Nat.ofDigitChars 10 ['0'] 0 = 0 := hzeros 1
        rw [Nat.ofDigitChars_append, Nat.ofDigitChars_append, hfirst, hzeros, ofDigitChars_numeral]
      · rw [List.length_append, List.length_replicate]
        omega

end Decimal

namespace LexicalClass

variable {d : Decimal} {w : List Char}

theorem mem_number_of_pointedAs (h : d.PointedAs w) : w ∈ number.language := by
  cases h with
  | whole hd hne =>
    obtain ⟨c, ds, rfl⟩ := List.exists_cons_of_ne_nil hne
    exact mem_number.2 (.inl ⟨c, ds, hd, rfl⟩)
  | fraction hd hds he hes =>
    obtain ⟨c, ds, rfl⟩ := List.exists_cons_of_ne_nil hds
    obtain ⟨e, es, rfl⟩ := List.exists_cons_of_ne_nil hes
    exact mem_number.2 (.inr ⟨c, ds, e, es, hd, he, rfl⟩)

/-- **A scan reads a written decimal** as the number that it rounds to. -/
theorem numeral_of_pointedAs (h : d.PointedAs w) : numeral w = d.toBinary64 := by
  cases h with
  | whole hd hne hvalue =>
    rw [numeral_whole hd, Lexeme.numberValue, List.append_nil]
    refine Decimal.toBinary64_congr ?_
    rw [← hvalue]
    simp [Decimal.value]
  | fraction hd hds he hes hdigits hplaces =>
    rw [numeral_fraction hd, Lexeme.numberValue, hdigits, ← hplaces]

end LexicalClass

/-! ## The plain form -/

namespace Binary64

variable {x : Binary64}

/-- The plain form of a finite number writes a decimal that reads as the number. -/
theorem exists_pointedAs_plain (hneg : x.isNegative = false) (hfin : x.isFinite = true) :
    ∃ d : Decimal, d.PointedAs x.plain.toList ∧ d.toBinary64 = x := by
  have hnan : x.isNaN = false := decide_eq_false (Nat.lt_asymm (magnitude_lt hfin))
  unfold plain signed
  rw [hnan, hfin, hneg]
  by_cases hzero : x.magnitude = 0
  · have hunits : unitsOf 0 = 0 := rfl
    have hvalue : x.value = (⟨0, 0⟩ : Decimal).value := by
      rw [value, units, hzero, hunits, Nat.cast_zero, zero_div, Decimal.value, Nat.cast_zero,
        zero_mul]
    refine ⟨⟨0, 0⟩, ?_, ?_⟩
    · rw [if_pos hzero]
      exact Decimal.pointedAs_positional ⟨0, 0⟩
    · have hrounds := rounds_value hneg hfin
      rw [hvalue] at hrounds
      exact (Decimal.toBinary64_rounds _).unique hrounds
  · refine ⟨.shortest .upward x.magnitude, ?_, Decimal.toBinary64_shortest hneg hfin⟩
    rw [if_neg hzero]
    simpa using Decimal.pointedAs_positional _

/-- The plain form of a finite number is a number of the scan. -/
theorem plain_mem (hneg : x.isNegative = false) (hfin : x.isFinite = true) :
    x.plain.toList ∈ LexicalClass.number.language := by
  obtain ⟨d, hd, -⟩ := exists_pointedAs_plain hneg hfin
  exact LexicalClass.mem_number_of_pointedAs hd

/-- **The plain form of a finite number reads as the number.** -/
theorem numeral_plain (hneg : x.isNegative = false) (hfin : x.isFinite = true) :
    LexicalClass.numeral x.plain.toList = x := by
  obtain ⟨d, hd, hx⟩ := exists_pointedAs_plain hneg hfin
  rw [LexicalClass.numeral_of_pointedAs hd, hx]

end Binary64

end ScriptLexer
