import Mathlib.Algebra.Order.Field.Basic
import Mathlib.Data.Rat.Cast.Order
import Mathlib.Tactic.FieldSimp
import Mathlib.Tactic.Linarith
import Mathlib.Tactic.Ring
import ScriptLexer.Number.Decimal

/-!
# Numbers read from decimals are correctly rounded

The finite magnitudes are a grid: their units grow with their bits, and those above a power of two
are multiples of one spacing. So the nearest multiple of the spacing is the nearest of all numbers,
and counting spacings keeps the parity that decides a tie.

* `Binary64.unitsOf_add`: the units of a magnitude that is counted in spacings.
* `Binary64.unitsOf_strictMono`, `Binary64.unitsOf_grid`: the grid.
* `Binary64.unbounded_nearer`: no other magnitude is as near, but for a tie that goes to the even.
* `Binary64.Rounds`: what it is to be the correctly rounded number.
* `Binary64.rounds_roundUnits`: a ratio of units is correctly rounded.
* `Binary64.Rounds.unique`: a rational number rounds to one number only.
* `Decimal.toBinary64_rounds`: reading a decimal rounds it correctly.
-/

namespace ScriptLexer

namespace Binary64

/-! ## The nearest integer -/

/-- How far `u` units are from `num / den` units, in parts of `den`. -/
def distance (num den u : Nat) : Nat :=
  (num - u * den) + (u * den - num)

/-- `u` units are nearer to `num / den` units than `w`, or as near with even bits. -/
def Nearer (num den bits u w : Nat) : Prop :=
  distance num den u < distance num den w ∨
    (distance num den u = distance num den w ∧ bits % 2 = 0)

variable {num den : Nat}

theorem Nearer.le {bits u w : Nat} (h : Nearer num den bits u w) :
    distance num den u ≤ distance num den w := by
  rcases h with h | ⟨h, -⟩
  · exact Nat.le_of_lt h
  · exact Nat.le_of_eq h

/-- The nearest integer is one of the two around the quotient. -/
theorem divNearest_cases (num den : Nat) :
    (divNearest num den = num / den ∧ 2 * (num % den) ≤ den ∧
        (2 * (num % den) = den → num / den % 2 = 0)) ∨
      (divNearest num den = num / den + 1 ∧ den ≤ 2 * (num % den) ∧
        (2 * (num % den) = den → num / den % 2 = 1)) := by
  unfold divNearest
  dsimp only
  split <;> omega

/-- **No other integer is as near to a quotient**, but for a tie that goes to the even. -/
theorem divNearest_nearer (hden : 0 < den) {k : Nat} (hk : k ≠ divNearest num den) :
    Nearer num den (divNearest num den) (divNearest num den) k := by
  have hdiv : num / den * den + num % den = num := Nat.div_add_mod' num den
  have hmod := Nat.mod_lt num hden
  have hsucc : (num / den + 1) * den = num / den * den + den := Nat.succ_mul _ _
  have hbelow : k < num / den → k * den + den ≤ num / den * den := fun h => by
    rw [← Nat.succ_mul]
    exact Nat.mul_le_mul_right den h
  have habove : num / den + 1 < k → num / den * den + den + den ≤ k * den := fun h => by
    rw [← hsucc, ← Nat.succ_mul]
    exact Nat.mul_le_mul_right den h
  unfold Nearer distance
  rcases divNearest_cases num den with ⟨hn, hle, htie⟩ | ⟨hn, hle, htie⟩
  all_goals
    rw [hn] at hk ⊢
    rcases Nat.lt_trichotomy k (num / den) with h | h | h
    · have := hbelow h
      omega
    · subst h
      omega
    · obtain rfl | h : k = num / den + 1 ∨ num / den + 1 < k := by omega
      · omega
      · have := habove h
        omega

theorem divNearest_le (hden : 0 < den) (k : Nat) :
    distance num den (divNearest num den) ≤ distance num den k := by
  by_cases hk : k = divNearest num den
  · rw [hk]
  · exact (divNearest_nearer hden hk).le

/-! ## The grid of magnitudes -/

theorem binadeSize_pos : 0 < binadeSize := by decide

/-- A magnitude that is counted in spacings of `2 ^ e` has as many of them as units. -/
theorem unitsOf_add {e n : Nat} (hn : n ≤ 2 * binadeSize) (he : e = 0 ∨ binadeSize ≤ n) :
    unitsOf (e * binadeSize + n) = n * 2 ^ e := by
  have hs := binadeSize_pos
  unfold unitsOf
  dsimp only
  -- below a binade, in the one that the spacing belongs to, or at the start of the next
  obtain h | h | h : n < binadeSize ∨ (binadeSize ≤ n ∧ n < 2 * binadeSize) ∨
      n = 2 * binadeSize := by omega
  · obtain rfl : e = 0 := by omega
    rw [Nat.zero_mul, Nat.zero_add, if_pos (Nat.div_eq_of_lt h), Nat.mod_eq_of_lt h, Nat.pow_zero,
      Nat.mul_one]
  · have hsplit : e * binadeSize + n = (n - binadeSize) + (e + 1) * binadeSize := by
      rw [Nat.succ_mul]; omega
    have hlt : n - binadeSize < binadeSize := by omega
    rw [hsplit, Nat.add_mul_div_right _ _ hs, Nat.div_eq_of_lt hlt, Nat.add_mul_mod_self_right,
      Nat.mod_eq_of_lt hlt, if_neg (by omega), Nat.pow_eq, Nat.zero_add, Nat.add_sub_cancel,
      Nat.add_sub_cancel' h.1]
  · have hsplit : e * binadeSize + n = (e + 2) * binadeSize := by
      rw [Nat.add_mul]; omega
    rw [hsplit, Nat.mul_div_cancel _ hs, Nat.mul_mod_left, if_neg (by omega), h, Nat.pow_eq,
      Nat.add_zero, Nat.add_sub_assoc (by decide), Nat.pow_add_one]
    ring

/-- Every magnitude is counted in the spacing of its binade. -/
theorem exists_spacings (m : Nat) : ∃ n, m = (m / binadeSize - 1) * binadeSize + n ∧
    n < 2 * binadeSize ∧ (m / binadeSize - 1 = 0 ∨ binadeSize ≤ n) := by
  have hdiv := Nat.div_add_mod' m binadeSize
  have hmod := Nat.mod_lt m binadeSize_pos
  obtain h | ⟨b, hb⟩ : m / binadeSize = 0 ∨ ∃ b, m / binadeSize = b + 1 := by
    cases m / binadeSize <;> simp
  · exact ⟨m, by simp [h], by rw [h] at hdiv; omega, .inl (by omega)⟩
  · refine ⟨binadeSize + m % binadeSize, ?_, by omega, .inr (by omega)⟩
    rw [hb, Nat.succ_mul] at hdiv
    rw [hb, Nat.add_sub_cancel]
    omega

/-- The next magnitude is one spacing further. -/
theorem unitsOf_succ (m : Nat) : unitsOf (m + 1) = unitsOf m + 2 ^ (m / binadeSize - 1) := by
  obtain ⟨n, hm, hn, he⟩ := exists_spacings m
  generalize m / binadeSize - 1 = e at hm he ⊢
  rw [hm, Nat.add_assoc, unitsOf_add (by omega) (by omega), unitsOf_add (by omega) he,
    Nat.succ_mul]

theorem unitsOf_strictMono : StrictMono unitsOf :=
  strictMono_nat_of_lt_succ fun m => by
    rw [unitsOf_succ]
    exact Nat.lt_add_of_pos_right (Nat.two_pow_pos _)

/-- **Magnitudes are multiples of a spacing**, but for those below the binade it belongs to. -/
theorem unitsOf_grid (m e : Nat) :
    (∃ k, unitsOf m = k * 2 ^ e) ∨ unitsOf m < binadeSize * 2 ^ e := by
  obtain ⟨n, hm, hn, he⟩ := exists_spacings m
  generalize m / binadeSize - 1 = d at hm he
  rw [hm, unitsOf_add (Nat.le_of_lt hn) he]
  obtain h | h := Nat.le_total e d
  · refine .inl ⟨n * 2 ^ (d - e), ?_⟩
    rw [Nat.mul_assoc, ← Nat.pow_add, Nat.sub_add_cancel h]
  · obtain h | h := Nat.eq_or_lt_of_le h
    · exact .inl ⟨n, by rw [h]⟩
    · -- the spacing of a lower binade, counted to the end of it
      have hlt : n * 2 ^ d < 2 * binadeSize * 2 ^ d :=
        Nat.mul_lt_mul_of_pos_right hn (Nat.two_pow_pos d)
      have hle : 2 ^ (d + 1) ≤ 2 ^ e := Nat.pow_le_pow_right (by decide) h
      have hbin := Nat.mul_le_mul_left binadeSize hle
      rw [Nat.pow_succ'] at hbin
      right
      calc n * 2 ^ d < 2 * binadeSize * 2 ^ d := hlt
        _ = binadeSize * (2 * 2 ^ d) := by ring
        _ ≤ binadeSize * 2 ^ e := hbin

/-! ## The nearest magnitude -/

/-- The exponent of the spacing at a number of units. -/
def spacing (units : Nat) : Nat :=
  units.log2 - 52

/-- The magnitude bits nearest to a ratio of units if the binades had no end. -/
def unbounded (num den : Nat) : Nat :=
  spacing (num / den) * binadeSize + divNearest num (den * 2 ^ spacing (num / den))

theorem roundUnits_eq (num den : Nat) :
    roundUnits num den = min infinityBits (unbounded num den) := rfl

/-- The spacings in a number of units: enough for a binade, but for the first, and not for two. -/
theorem spacings_bounds (units : Nat) : units / 2 ^ spacing units < 2 * binadeSize ∧
    (spacing units = 0 ∨ binadeSize ≤ units / 2 ^ spacing units) := by
  have hsize : binadeSize = 2 ^ 52 := by decide
  have hlog : units.log2 + 1 ≤ spacing units + 53 := by unfold spacing; omega
  have hlt : units < 2 ^ (spacing units + 53) :=
    Nat.lt_of_lt_of_le Nat.lt_log2_self (Nat.pow_le_pow_right (by decide) hlog)
  refine ⟨?_, ?_⟩
  · rw [Nat.div_lt_iff_lt_mul (Nat.two_pow_pos _), hsize]
    calc units < 2 ^ (spacing units + 53) := hlt
      _ = 2 ^ 53 * 2 ^ spacing units := by rw [Nat.pow_add, Nat.mul_comm]
  · by_cases h : spacing units = 0
    · exact .inl h
    · have hlog : spacing units + 52 = units.log2 := by unfold spacing at h ⊢; omega
      have hne : units ≠ 0 := by rintro rfl; exact h rfl
      right
      rw [Nat.le_div_iff_mul_le (Nat.two_pow_pos _), hsize, ← Nat.pow_add, Nat.add_comm, hlog]
      exact Nat.log2_self_le hne

/-- The nearest magnitude is counted in the spacing at the ratio. -/
theorem unitsOf_unbounded (num den : Nat) : unitsOf (unbounded num den) =
    divNearest num (den * 2 ^ spacing (num / den)) * 2 ^ spacing (num / den) := by
  obtain ⟨hlt, he⟩ := spacings_bounds (num / den)
  rw [Nat.div_div_eq_div_mul] at hlt he
  rw [unbounded]
  have hcases := divNearest_cases num (den * 2 ^ spacing (num / den))
  exact unitsOf_add (by omega) (by omega)

theorem distance_mul (num den k s : Nat) : distance num den (k * s) = distance num (den * s) k := by
  rw [distance, distance, Nat.mul_assoc, Nat.mul_comm s den]

/-- Binades have an even number of magnitudes, so the parity is that of the spacings. -/
theorem unbounded_mod_two (num den : Nat) : unbounded num den % 2 =
    divNearest num (den * 2 ^ spacing (num / den)) % 2 := by
  have hsize : binadeSize = 2 * 2 ^ 51 := by decide
  rw [unbounded, hsize, ← Nat.mul_assoc, Nat.mul_comm _ 2, Nat.mul_assoc, Nat.mul_add_mod]

/-- **No other magnitude is as near to a ratio**, but for a tie that goes to the even bits. -/
theorem unbounded_nearer (hden : 0 < den) {m : Nat} (hm : m ≠ unbounded num den) :
    Nearer num den (unbounded num den) (unitsOf (unbounded num den)) (unitsOf m) := by
  obtain ⟨-, hlow⟩ := spacings_bounds (num / den)
  have hne : unitsOf m ≠ unitsOf (unbounded num den) := unitsOf_strictMono.injective.ne hm
  rw [Nat.div_div_eq_div_mul] at hlow
  rw [unitsOf_unbounded] at hne
  unfold Nearer
  rw [unbounded_mod_two, unitsOf_unbounded, distance_mul]
  generalize spacing (num / den) = e at *
  have hscaled : 0 < den * 2 ^ e := Nat.mul_pos hden (Nat.two_pow_pos e)
  obtain ⟨k, hk⟩ | ⟨hlow, hbelow⟩ : (∃ k, unitsOf m = k * 2 ^ e) ∨
      (binadeSize ≤ num / (den * 2 ^ e) ∧ unitsOf m < binadeSize * 2 ^ e) := by
    rcases hlow with rfl | hlow
    · exact .inl ⟨unitsOf m, by rw [Nat.pow_zero, Nat.mul_one]⟩
    · exact (unitsOf_grid m e).imp_right fun h => ⟨hlow, h⟩
  · -- another multiple of the spacing
    rw [hk, distance_mul]
    exact divNearest_nearer hscaled fun h => hne (by rw [hk, h])
  · -- less than the multiple below the ratio
    left
    have hnear := @divNearest_le num _ hscaled (num / (den * 2 ^ e))
    have hfloor : num / (den * 2 ^ e) * (den * 2 ^ e) ≤ num := Nat.div_mul_le_self num _
    have hunder : unitsOf m * den < num / (den * 2 ^ e) * (den * 2 ^ e) :=
      calc unitsOf m * den < binadeSize * 2 ^ e * den := Nat.mul_lt_mul_of_pos_right hbelow hden
        _ = binadeSize * (den * 2 ^ e) := by rw [Nat.mul_assoc, Nat.mul_comm den]
        _ ≤ num / (den * 2 ^ e) * (den * 2 ^ e) := Nat.mul_le_mul_right _ hlow
    have hfar :
        distance num (den * 2 ^ e) (num / (den * 2 ^ e)) < distance num den (unitsOf m) := by
      unfold distance
      omega
    exact Nat.lt_of_le_of_lt hnear hfar

theorem unbounded_le (hden : 0 < den) (m : Nat) :
    distance num den (unitsOf (unbounded num den)) ≤ distance num den (unitsOf m) := by
  by_cases hm : m = unbounded num den
  · rw [hm]
  · exact (unbounded_nearer hden hm).le

/-- **A ratio rounds to a finite number** if it is in front of the middle between the last one and
what would be the next. -/
theorem unbounded_lt_infinityBits_iff (hden : 0 < den) : unbounded num den < infinityBits ↔
    2 * num < (unitsOf (infinityBits - 1) + unitsOf infinityBits) * den := by
  have hlast : unitsOf (infinityBits - 1) * den < unitsOf infinityBits * den :=
    Nat.mul_lt_mul_of_pos_right (unitsOf_strictMono (by decide)) hden
  have hmono := @StrictMono.monotone _ _ _ _ _ unitsOf_strictMono
  rw [Nat.add_mul]
  constructor
  · intro h
    by_contra hfar
    have hle : unitsOf (unbounded num den) * den ≤ unitsOf (infinityBits - 1) * den :=
      Nat.mul_le_mul_right den (hmono (Nat.le_sub_one_of_lt h))
    -- the next one is as near as the last at most, so the tie goes to it
    rcases unbounded_nearer hden (Nat.ne_of_gt h) with hlt | ⟨heq, heven⟩
    · unfold distance at hlt
      omega
    · have hmul : unitsOf (unbounded num den) * den = unitsOf (infinityBits - 1) * den := by
        unfold distance at heq
        omega
      have hbits := unitsOf_strictMono.injective (Nat.eq_of_mul_eq_mul_right hden hmul)
      rw [hbits] at heven
      exact absurd heven (by decide)
  · intro h
    by_contra hpast
    have hle : unitsOf infinityBits * den ≤ unitsOf (unbounded num den) * den :=
      Nat.mul_le_mul_right den (hmono (Nat.le_of_not_lt hpast))
    have hnear := @unbounded_le num den hden (infinityBits - 1)
    unfold distance at hnear
    omega

/-! ## Correct rounding -/

/-- The value of a finite number without its sign. -/
def value (x : Binary64) : ℚ :=
  x.units / unitsPerOne

/-- What is as large rounds to infinity: the middle between the last finite number and the power of
two that would be the next. -/
def overflow : ℚ :=
  2 ^ 1024 - 2 ^ 970

/-- The non-negative number that a rational number rounds to: the nearest finite one, of two the one
with even bits, and infinity past the middle behind the last. -/
structure Rounds (q : ℚ) (x : Binary64) : Prop where
  positive : x.isNegative = false
  finite_iff : x.isFinite = true ↔ q < overflow
  infinite : x.isFinite = false → x.magnitude = infinityBits
  nearest : x.isFinite = true → ∀ y : Binary64, y.isFinite = true → |q - x.value| ≤ |q - y.value|
  even : x.isFinite = true → ∀ y : Binary64, y.isFinite = true → y.value ≠ x.value →
    |q - x.value| = |q - y.value| → x.magnitude % 2 = 0

theorem cast_unitsPerOne : (unitsPerOne : ℚ) = 2 ^ 1074 := by
  unfold unitsPerOne
  generalize 1074 = n
  rw [Nat.pow_eq, Nat.cast_pow, Nat.cast_ofNat]

theorem unitsPerOne_pos : (0 : ℚ) < unitsPerOne := by
  rw [cast_unitsPerOne]
  exact pow_pos two_pos _

/-- The word of a non-negative number is its magnitude. -/
theorem toNat_bits_ofMagnitude {m : Nat} (h : m < signBit) :
    (ofMagnitude false m).bits.toNat = m := by
  rw [ofMagnitude, UInt64.toNat_ofNat', if_neg (by decide)]
  exact Nat.mod_eq_of_lt (Nat.lt_trans h (by decide))

theorem magnitude_ofMagnitude {m : Nat} (h : m < signBit) :
    (ofMagnitude false m).magnitude = m := by
  rw [magnitude, toNat_bits_ofMagnitude h]
  exact Nat.mod_eq_of_lt h

theorem isNegative_ofMagnitude {m : Nat} (h : m < signBit) :
    (ofMagnitude false m).isNegative = false := by
  rw [isNegative, toNat_bits_ofMagnitude h]
  exact decide_eq_false (Nat.not_le.2 h)

/-- The middle between the last finite number and what would be the next, in units. -/
theorem two_mul_overflow : 2 * (overflow * unitsPerOne) =
    (unitsOf (infinityBits - 1) + unitsOf infinityBits : ℕ) := by
  have hlast : unitsOf (infinityBits - 1) = (2 * binadeSize - 1) * 2 ^ 2045 :=
    @unitsOf_add 2045 (2 * binadeSize - 1) (by decide) (by decide)
  have hnext : unitsOf infinityBits = 2 * binadeSize * 2 ^ 2045 :=
    @unitsOf_add 2045 (2 * binadeSize) (by decide) (by decide)
  have hfirst : (2 : ℚ) ^ 1024 = 2 ^ 54 * 2 ^ 970 := pow_add 2 54 970
  have hlarge : (2 : ℚ) ^ 2045 = 2 * (2 ^ 970 * 2 ^ 1074) := by
    rw [← pow_add, ← pow_succ']
  rw [hlast, hnext, ← Nat.add_mul, Nat.cast_mul, Nat.cast_pow, Nat.cast_ofNat, hlarge, overflow,
    cast_unitsPerOne, hfirst]
  generalize (2 : ℚ) ^ 970 = x
  generalize (2 : ℚ) ^ 1074 = y
  have hsize : ((2 * binadeSize - 1 + 2 * binadeSize : ℕ) : ℚ) = 2 ^ 54 - 1 := by
    norm_num [binadeSize]
  rw [hsize]
  ring

variable {q : ℚ}

/-- The distance of a ratio from a number of units, as rational numbers. -/
theorem abs_sub_units (hden : 0 < den) (hq : q * unitsPerOne = num / den) (u : Nat) :
    |q - u / unitsPerOne| = distance num den u / (den * unitsPerOne) := by
  have hone := unitsPerOne_pos
  generalize (unitsPerOne : ℚ) = one at hone hq ⊢
  have hden' : (0 : ℚ) < den := Nat.cast_pos.2 hden
  have hdist : ((distance num den u : ℕ) : ℚ) = |(num : ℚ) - u * den| := by
    unfold distance
    rcases Nat.le_total num (u * den) with h | h
    · have h' : (num : ℚ) ≤ u * den := by exact_mod_cast h
      rw [Nat.sub_eq_zero_of_le h, Nat.zero_add, Nat.cast_sub h, abs_of_nonpos (by linarith),
        Nat.cast_mul, neg_sub]
    · have h' : (u * den : ℚ) ≤ num := by exact_mod_cast h
      rw [Nat.sub_eq_zero_of_le h, Nat.add_zero, Nat.cast_sub h, abs_of_nonneg (by linarith),
        Nat.cast_mul]
  have hsub : q - u / one = (num - u * den) / (den * one) := by
    rw [eq_div_iff (by positivity), sub_mul, div_mul_eq_mul_div, mul_comm (den : ℚ), ← mul_assoc,
      hq]
    field_simp
  rw [hsub, hdist, abs_div, abs_of_pos (mul_pos hden' hone)]

/-- A ratio is nearer to one number of units than to another if its distance is smaller. -/
theorem abs_sub_units_le_iff (hden : 0 < den) (hq : q * unitsPerOne = num / den) (u w : Nat) :
    |q - u / unitsPerOne| ≤ |q - w / unitsPerOne| ↔ distance num den u ≤ distance num den w := by
  have hpos : (0 : ℚ) < den * unitsPerOne := mul_pos (Nat.cast_pos.2 hden) unitsPerOne_pos
  rw [abs_sub_units hden hq, abs_sub_units hden hq, div_le_div_iff_of_pos_right hpos, Nat.cast_le]

theorem magnitude_eq_of_value {x y : Binary64} (h : x.value = y.value) :
    x.magnitude = y.magnitude := by
  have hunits : (x.units : ℚ) = y.units := (div_left_inj' unitsPerOne_pos.ne').1 h
  exact unitsOf_strictMono.injective (Nat.cast_injective hunits)

/-- A ratio is rounded to a finite number if it is below the bound, in units or not. -/
theorem unbounded_lt_iff_lt_overflow (hden : 0 < den) (hq : q * unitsPerOne = num / den) :
    unbounded num den < infinityBits ↔ q < overflow := by
  have hden' : (0 : ℚ) < den := Nat.cast_pos.2 hden
  rw [unbounded_lt_infinityBits_iff hden, ← @Nat.cast_lt ℚ, Nat.cast_mul, Nat.cast_mul,
    ← two_mul_overflow, Nat.cast_ofNat, mul_assoc, mul_lt_mul_iff_right₀ two_pos,
    ← div_lt_iff₀ hden', ← hq, mul_lt_mul_iff_left₀ unitsPerOne_pos]

theorem roundUnits_lt_signBit (num den : Nat) : roundUnits num den < signBit :=
  Nat.lt_of_le_of_lt (Nat.min_le_left _ _) (by decide)

theorem magnitude_rounded (num den : Nat) :
    (ofMagnitude false (roundUnits num den)).magnitude = min infinityBits (unbounded num den) := by
  rw [magnitude_ofMagnitude (roundUnits_lt_signBit num den), roundUnits_eq]

theorem isFinite_rounded : (ofMagnitude false (roundUnits num den)).isFinite = true ↔
    unbounded num den < infinityBits := by
  rw [isFinite, magnitude_rounded, decide_eq_true_eq]
  omega

/-- **Rounding a ratio of units gives the correctly rounded number.** -/
theorem rounds_roundUnits (hden : 0 < den) (hq : q * unitsPerOne = num / den) :
    Rounds q (ofMagnitude false (roundUnits num den)) := by
  have hbits (h : (ofMagnitude false (roundUnits num den)).isFinite = true) :
      (ofMagnitude false (roundUnits num den)).magnitude = unbounded num den := by
    rw [magnitude_rounded]
    exact Nat.min_eq_right (Nat.le_of_lt (isFinite_rounded.1 h))
  refine ⟨isNegative_ofMagnitude (roundUnits_lt_signBit num den),
    isFinite_rounded.trans (unbounded_lt_iff_lt_overflow hden hq), fun h => ?_, fun h y _ => ?_,
    fun h y _ hne heq => ?_⟩
  · have hpast : ¬ unbounded num den < infinityBits := fun hlt => by
      rw [isFinite_rounded.2 hlt] at h
      cases h
    rw [magnitude_rounded]
    exact Nat.min_eq_left (Nat.le_of_not_lt hpast)
  · unfold value units
    rw [abs_sub_units_le_iff hden hq, hbits h]
    exact unbounded_le hden _
  · have hm : y.magnitude ≠ unbounded num den := fun hm => hne (by
      unfold value units
      rw [hbits h, hm])
    unfold value units at heq
    rw [hbits h] at heq ⊢
    have hback := (abs_sub_units_le_iff hden hq _ _).1 (le_of_eq heq.symm)
    -- the other number is as near, so the rounded one is not strictly nearer
    rcases unbounded_nearer hden hm with hlt | ⟨-, heven⟩
    · omega
    · exact heven

/-! ## There is one correctly rounded number -/

theorem magnitude_lt {x : Binary64} (h : x.isFinite = true) : x.magnitude < infinityBits :=
  of_decide_eq_true h

theorem value_lt {x y : Binary64} (h : x.magnitude < y.magnitude) : x.value < y.value := by
  have hunits : (x.units : ℚ) < y.units := Nat.cast_lt.2 (unitsOf_strictMono h)
  exact (div_lt_div_iff_of_pos_right unitsPerOne_pos).2 hunits

/-- A number in the middle of two with even bits is nearer to one between them. -/
theorem Rounds.ne_of_even {x y : Binary64} (hx : Rounds q x) (hfx : x.isFinite = true)
    (hfy : y.isFinite = true) (hlt : x.magnitude < y.magnitude) (hex : x.magnitude % 2 = 0)
    (hey : y.magnitude % 2 = 0) : |q - x.value| ≠ |q - y.value| := by
  intro heq
  have hy := magnitude_lt hfy
  have hm : (ofMagnitude false (x.magnitude + 1)).magnitude = x.magnitude + 1 :=
    magnitude_ofMagnitude (Nat.lt_trans (by omega : _ < infinityBits) (by decide))
  generalize ofMagnitude false (x.magnitude + 1) = z at hm
  have hfz : z.isFinite = true := by
    rw [isFinite, hm, decide_eq_true_eq]
    omega
  have hxz : x.value < z.value := value_lt (by omega)
  have hzy : z.value < y.value := value_lt (by omega)
  have hnear := hx.nearest hfx z hfz
  -- both distances are half of the interval, which has the other number inside
  have hmid : q - x.value = y.value - q := by
    rcases abs_eq_abs.1 heq with h | h <;> linarith
  rw [hmid, abs_of_pos (by linarith)] at hnear
  rcases le_abs.1 hnear with h | h <;> linarith

theorem eq_of_magnitude {x y : Binary64} (hx : x.isNegative = false) (hy : y.isNegative = false)
    (h : x.magnitude = y.magnitude) : x = y := by
  have hplain {z : Binary64} (hz : z.isNegative = false) : z.magnitude = z.bits.toNat :=
    Nat.mod_eq_of_lt (by simpa [isNegative] using hz)
  rw [hplain hx, hplain hy] at h
  exact congrArg mk (UInt64.toNat_inj.1 h)

/-- **A rational number rounds to one number only.** -/
theorem Rounds.unique {x y : Binary64} (hx : Rounds q x) (hy : Rounds q y) : x = y := by
  refine eq_of_magnitude hx.positive hy.positive ?_
  have hiff : x.isFinite = true ↔ y.isFinite = true := hx.finite_iff.trans hy.finite_iff.symm
  cases hfx : x.isFinite with
  | false =>
    have hfy : y.isFinite = false := by simpa [hfx] using hiff
    rw [hx.infinite hfx, hy.infinite hfy]
  | true =>
    have hfy := hiff.1 hfx
    have heq := le_antisymm (hx.nearest hfx y hfy) (hy.nearest hfy x hfx)
    by_contra hne
    have hvalue : y.value ≠ x.value := fun h => hne (magnitude_eq_of_value h.symm)
    have hex := hx.even hfx y hfy hvalue heq
    have hey := hy.even hfy x hfx hvalue.symm heq.symm
    rcases Nat.lt_or_gt_of_ne hne with hlt | hgt
    · exact hx.ne_of_even hfx hfy hlt hex hey heq
    · exact hy.ne_of_even hfy hfx hgt hey hex heq.symm

end Binary64

namespace Decimal

/-- The value of a decimal. -/
def value (d : Decimal) : ℚ :=
  d.digits * 10 ^ d.exponent

/-- **Reading a decimal rounds it correctly.** -/
theorem toBinary64_rounds (d : Decimal) : d.toBinary64.Rounds d.value := by
  unfold toBinary64 magnitude
  split
  next h =>
    refine Binary64.rounds_roundUnits Nat.one_pos ?_
    obtain ⟨n, hn⟩ := Int.eq_ofNat_of_zero_le h
    rw [value, hn, Int.toNat_natCast, Nat.pow_eq, Nat.cast_one, div_one, zpow_natCast]
    push_cast
    rfl
  next h =>
    obtain ⟨n, hn⟩ := Int.eq_ofNat_of_zero_le (show 0 ≤ -d.exponent by omega)
    have he : d.exponent = -(n : ℤ) := by omega
    rw [he, neg_neg, Int.toNat_natCast, Nat.pow_eq]
    refine Binary64.rounds_roundUnits (Nat.pow_pos (by decide)) ?_
    rw [value, he, zpow_neg, zpow_natCast]
    push_cast
    ring

end Decimal

end ScriptLexer
