import ScriptLexer.Proofs.DataLines
import ScriptLexer.Proofs.PrintedNumbers

/-!
# The value of a number in a dump

A number is given with a finite value exactly if its digits write less than the middle between the
last finite number and what would be the next; with up to 308 digits in front of its point they do.
The columns show a finite value as digits with at most one point. Past the bound the value is
infinity, which a listing shows as a word and which data cannot show: there it is null, as for the
tokens that have no value.

* `Text.positional_lt`: the size of a number by the digits in front of its point.
* `Token.shownValue`: what a line of data shows as the value of its token.
* `number_columns`: the columns of the tokens that a scanner gives.
-/

namespace ScriptLexer

/-! ## The size of a number -/

theorem ofDigitChars_lt {ds : List Char} (hd : ∀ c ∈ ds, c.isDigit = true) (n : Nat) :
    Nat.ofDigitChars 10 ds n < (n + 1) * 10 ^ ds.length := by
  induction ds generalizing n with
  | nil => simp
  | cons c ds ih =>
    obtain ⟨hc, hds⟩ := List.forall_mem_cons.1 hd
    have hle : c.toNat ≤ '9'.toNat := UInt32.le_iff_toNat_le.1 (isDigit_iff.1 hc).2
    have hdigit : c.toNat - '0'.toNat ≤ 9 := by
      have h9 : '9'.toNat = 57 := rfl
      have h0 : '0'.toNat = 48 := rfl
      omega
    rw [Nat.ofDigitChars_cons, List.length_cons, Nat.pow_succ', ← Nat.mul_assoc]
    refine Nat.lt_of_lt_of_le (ih hds _) (Nat.mul_le_mul_right _ ?_)
    omega

/-- A number is below the power of ten that has as many zeros as there are digits in front of its
point. -/
theorem Text.positional_lt {w : List Char} (h : w ∈ LexicalClass.number.language) :
    positional w < 10 ^ (w.takeWhile (· ≠ '.')).length := by
  rcases LexicalClass.mem_number.1 h with ⟨c, ds, hd, rfl⟩ | ⟨c, ds, d, es, hd, he, rfl⟩
  · have hpoint := forall_ne_of_notMem (LexicalClass.point_notMem hd)
    have hlt := ofDigitChars_lt hd 0
    rw [positional, List.dropWhile_eq_nil_iff.2 hpoint, List.takeWhile_eq_self_iff.2 hpoint,
      List.filter_eq_self.2 hd, List.drop_nil, List.length_nil, pow_zero, div_one]
    exact_mod_cast (by simpa using hlt)
  · have hpoint := forall_ne_of_notMem (LexicalClass.point_notMem hd)
    have hbehind : Stops (· ≠ '.') ('.' :: d :: es) := by simp
    have hlt := ofDigitChars_lt (List.forall_mem_append.2 ⟨hd, he⟩) 0
    rw [positional, dropWhile_run hpoint hbehind, takeWhile_run hpoint hbehind, List.filter_append,
      List.filter_eq_self.2 hd, List.filter_cons_of_neg (by decide), List.filter_eq_self.2 he,
      List.drop_one, List.tail_cons, div_lt_iff₀ (by positivity), ← pow_add, ← List.length_append]
    exact_mod_cast (by simpa using hlt)

/-- With up to 308 digits in front of its point, a number is finite. -/
theorem Text.positional_lt_overflow {w : List Char} (h : w ∈ LexicalClass.number.language)
    (hlen : (w.takeWhile (· ≠ '.')).length ≤ 308) : positional w < Binary64.overflow := by
  have hnat : 10 ^ 308 + 2 ^ 970 < 2 ^ 1024 := by decide +kernel
  have hlarge : (10 : ℚ) ^ 308 < Binary64.overflow := by
    rw [Binary64.overflow, lt_sub_iff_add_lt]
    exact_mod_cast hnat
  calc positional w < 10 ^ (w.takeWhile (· ≠ '.')).length := positional_lt h
    _ ≤ 10 ^ 308 := pow_le_pow_right₀ (by norm_num) hlen
    _ < Binary64.overflow := hlarge

/-! ## What data shows as a value -/

/-- What a line of data shows as the value of its token. -/
def Token.shownValue (t : Token) : Option Datum :=
  (DataLine.decode t.data.toList).bind (·.lookup "literal")

theorem Token.shownValue_eq (t : Token) : t.shownValue = some t.literal.datum := by
  rw [shownValue, DataLine.decode_data]
  rfl

theorem Binary64.dataForm?_eq_none_iff {x : Binary64} :
    x.dataForm? = none ↔ x.isFinite = false := by
  unfold dataForm?
  cases x.isFinite with
  | false => simp
  | true => by_cases hzero : x.magnitude = 0 <;> simp [hzero]

/-- Null is shown for what is no value, and for a number that is not finite. -/
theorem Literal.datum_eq_null_iff {l : Literal} :
    l.datum = .null ↔ l = .none ∨ ∃ value, l = .number value ∧ value.isFinite = false := by
  cases l with
  | none => simp [datum]
  | string text => simp [datum]
  | number value =>
    have hform := @Binary64.dataForm?_eq_none_iff value
    simp only [datum, reduceCtorEq, false_or, number.injEq, exists_eq_left']
    cases hdata : value.dataForm? with
    | none => simp [← hform, hdata]
    | some text => simp [← hform, hdata]

/-- A token without a value is neither a number nor a string. -/
theorem Token.literal_eq_none_iff {t : Token} :
    t.literal = .none ↔ t.kind ≠ .number ∧ t.kind ≠ .string := by
  have hsuits := t.suits
  cases hl : t.literal with
  | none =>
    rw [hl] at hsuits
    have hplain : t.kind.isLiteral = false := hsuits
    refine iff_of_true rfl ⟨?_, ?_⟩
    · intro hk
      rw [hk] at hplain
      cases hplain
    · intro hk
      rw [hk] at hplain
      cases hplain
  | number value =>
    rw [hl] at hsuits
    exact iff_of_false (by simp) fun h => h.1 hsuits
  | string text =>
    rw [hl] at hsuits
    exact iff_of_false (by simp) fun h => h.2 hsuits

/-! ## The columns of a token -/

theorem Binary64.Rounds.plain_of_infinite {q : ℚ} {x : Binary64} (h : x.Rounds q)
    (hfin : x.isFinite = false) : x.plain = "inf" := by
  have hnan : x.isNaN = false := by
    rw [isNaN, h.infinite hfin, decide_eq_false (Nat.lt_irrefl _)]
  unfold plain signed
  rw [hnan, hfin, h.positive]
  rfl

/-- **The columns of the tokens that a scanner gives.** The value of a number is finite exactly if
its lexeme writes less than the bound of overflow, and so with up to 308 digits in front of its
point. A finite value is listed as digits with at most one point, another one as a word. A line of
data shows null for the tokens that are neither numbers nor strings, and for numbers past the
bound. -/
theorem number_columns {ρ : Type} [Reporter ρ] (source : String) (r : ρ) (t : Token)
    (h : (Scanner.ofText source r).Gives t) :
    (t.kind = .number → ∃ value, t.literal = .number value ∧
      (value.isFinite = true ↔ Text.positional t.lexeme.toList < Binary64.overflow) ∧
      ((t.lexeme.toList.takeWhile (· ≠ '.')).length ≤ 308 → value.isFinite = true) ∧
      (value.isFinite = true → t.literal.listing.toList ∈ LexicalClass.number.language) ∧
      (value.isFinite = false → t.literal.listing = "inf")) ∧
    (t.shownValue = some .null ↔ (t.kind ≠ .number ∧ t.kind ≠ .string) ∨
      (t.kind = .number ∧ Binary64.overflow ≤ Text.positional t.lexeme.toList)) := by
  have hdescribes := h.describes
  constructor
  · intro hkind
    rw [hkind] at hdescribes
    obtain ⟨value, hmem, hliteral, -, hrounds⟩ := hdescribes
    refine ⟨value, hliteral, hrounds.finite_iff, fun hlen => ?_, fun hfin => ?_, fun hinf => ?_⟩
    · exact hrounds.finite_iff.2 (Text.positional_lt_overflow hmem hlen)
    · rw [hliteral]
      exact Binary64.plain_mem hrounds.positive hfin
    · rw [hliteral]
      exact hrounds.plain_of_infinite hinf
  · rw [Token.shownValue_eq, Option.some_inj, Literal.datum_eq_null_iff,
      Token.literal_eq_none_iff]
    refine or_congr_right ?_
    constructor
    · rintro ⟨value, hliteral, hinf⟩
      obtain ⟨hkind, hrounds⟩ := h.rounds hliteral
      refine ⟨hkind, le_of_not_gt fun hlt => ?_⟩
      rw [hrounds.finite_iff.2 hlt] at hinf
      cases hinf
    · rintro ⟨hkind, hpast⟩
      rw [hkind] at hdescribes
      obtain ⟨value, -, hliteral, -, hrounds⟩ := hdescribes
      refine ⟨value, hliteral, ?_⟩
      rw [← Bool.not_eq_true, hrounds.finite_iff]
      exact not_lt_of_ge hpast

/-- A number with a fraction is shown in both columns. -/
theorem number_columns_of_fraction :
    ∃ t, (Scanner.ofText "2.50" Collection.empty).Gives t ∧ t.kind = .number ∧
      t.literal.listing.toList ∈ LexicalClass.number.language ∧ t.shownValue ≠ some .null := by
  have hmem : "2.50".toList ∈ LexicalClass.number.language :=
    LexicalClass.mem_number.2 (.inr ⟨'2', [], '5', ['0'], by simp, by simp, rfl⟩)
  obtain ⟨t, e, s, hscan, -, hkind, hlexeme, -, -⟩ :=
    scansAsNumber_of_mem hmem Collection Collection.empty
  rw [String.ofList_toList] at hscan hlexeme
  have hgives := gives_of_mem_scan hscan (t := t) (by simp)
  obtain ⟨hnumber, hnull⟩ := number_columns "2.50" Collection.empty t hgives
  obtain ⟨value, -, hfinite, hshort, hlisted, -⟩ := hnumber hkind
  have hfin : value.isFinite = true := hshort (by rw [hlexeme]; decide)
  refine ⟨t, hgives, hkind, hlisted hfin, fun hshown => ?_⟩
  rcases hnull.1 hshown with ⟨hne, -⟩ | ⟨-, hpast⟩
  · exact hne hkind
  · exact absurd (hfinite.1 hfin) (not_lt_of_ge hpast)

/-- A number of 309 digits that is past the bound: its value is infinity, listed as a word and null
as data. -/
theorem null_column_of_long_number :
    ∃ tokens s, scan (.ofList (.replicate 309 '9')) Collection.empty = .ok (tokens, s) ∧
      ∃ t ∈ tokens, t.kind = .number ∧ t.literal = .number ⟨0x7ff0000000000000⟩ ∧
        Binary64.isFinite ⟨0x7ff0000000000000⟩ = false ∧ t.literal.listing = "inf" ∧
        t.shownValue = some .null := by
  have hdigits : ∀ c ∈ List.replicate 309 '9', c.isDigit = true := fun c hc => by
    rw [List.eq_of_mem_replicate hc]
    rfl
  have hmem : List.replicate 309 '9' ∈ LexicalClass.number.language :=
    LexicalClass.mem_number.2 (.inl ⟨'9', .replicate 308 '9', hdigits, rfl⟩)
  have hvalue : LexicalClass.numeral (.replicate 309 '9') = ⟨0x7ff0000000000000⟩ := by
    decide +kernel
  obtain ⟨t, e, s, hscan, -, hkind, -, hliteral, -⟩ :=
    scansAsNumber_of_mem hmem Collection Collection.empty
  rw [hvalue] at hliteral
  refine ⟨_, s, hscan, t, by simp, hkind, hliteral, by decide, ?_, ?_⟩
  · rw [hliteral]
    rfl
  · rw [Token.shownValue_eq, hliteral]
    rfl

end ScriptLexer
