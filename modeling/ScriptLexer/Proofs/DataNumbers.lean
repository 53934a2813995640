import ScriptLexer.Proofs.DataStrings

/-!
# Numbers of data are read as the grammar has them

A number is read as far as its characters go, so in front of a text that it cannot go on with it is
read whole; what it is then only depends on how it is written. Whatever reads as a number is one of
the grammar.

* `Answers`: what a reading comes to, its place apart.
* `Numeral.read_of_spells`: a number is read to its end.
* `Numeral.Written.Spells.of_read`: nothing else reads as a number.
-/

namespace ScriptLexer

/-! ## What a reading comes to -/

/-- A reading gives a value and leaves a rest, or it is refused where there is no value. -/
def Answers {α : Type} (r : Except Refusal (α × Cursor)) (a? : Option α) (rest : List Char) :
    Prop :=
  match a? with
  | some a => ∃ offset, r = .ok (a, ⟨offset, rest⟩)
  | none => ∃ refusal, r = .error refusal

/-! ## Digits -/

theorem Digits.takeWhile {text digits rest : List Char} (h : Digits text digits rest)
    (hrest : Text.Stops Char.isDigit rest) :
    text.takeWhile Char.isDigit = digits ∧ text.dropWhile Char.isDigit = rest := by
  rw [h.append]
  exact ⟨Text.takeWhile_run h.isDigit hrest, Text.dropWhile_run h.isDigit hrest⟩

/-- A digit begins a run of digits. -/
theorem Digits.of_isDigit {d : Char} {text : List Char} (hd : d.isDigit = true) :
    Digits (d :: text) ((d :: text).takeWhile Char.isDigit)
      ((d :: text).dropWhile Char.isDigit) where
  append := List.takeWhile_append_dropWhile.symm
  ne_nil := by
    rw [List.takeWhile_cons_of_pos hd]
    exact List.cons_ne_nil _ _
  isDigit := Text.forall_mem_takeWhile _ _

namespace Numeral

variable {text rest : List Char}

/-! ## What follows the parts of a number -/

theorem SpellsExponent.stops {p : Char → Bool} {exponent : Option (Bool × List Char)}
    (h : SpellsExponent text exponent rest) (hrest : Text.Stops p rest) (he : p 'e' = false)
    (hE : p 'E' = false) : Text.Stops p text := by
  cases h with
  | none => exact hrest
  | letter hmark =>
    refine (Text.stops_cons _ _ _).2 ?_
    rcases hmark with rfl | rfl
    · exact he
    · exact hE

theorem SpellsFraction.stops {fraction : Option (List Char)}
    (h : SpellsFraction text fraction rest) (hrest : Text.Stops Char.isDigit rest) :
    Text.Stops Char.isDigit text := by
  cases h with
  | none => exact hrest
  | point => exact (Text.stops_cons _ _ _).2 (by decide)

/-! ## The parts of a number -/

theorem readWhole_of_spells {whole : List Char} (h : SpellsWhole text whole rest)
    (hrest : Text.Stops Char.isDigit rest) (offset : Nat) :
    ∃ offset', readWhole ⟨offset, text⟩ = .ok (whole, ⟨offset', rest⟩) := by
  cases h with
  | zero =>
    have hzero : ('0').isDigit = true := by decide
    have hnext : rest.head?.any Char.isDigit = false := by
      cases rest with
      | nil => rfl
      | cons d more => exact (Text.stops_cons _ _ _).1 hrest
    refine ⟨offset + 1, ?_⟩
    simp [readWhole, hzero, hnext, Cursor.past]
  | digits h hzero =>
    obtain ⟨htake, hdrop⟩ := h.takeWhile hrest
    obtain ⟨d, more, rfl, hd⟩ := h.exists_cons
    have hne : d ≠ '0' := by
      rintro rfl
      rw [List.takeWhile_cons_of_pos hd] at htake
      exact hzero (by rw [← htake, List.head?_cons])
    refine ⟨offset + whole.length, ?_⟩
    simp only [readWhole, Cursor.skipWhile, htake, hdrop, hd, Bool.not_true, Bool.false_eq_true,
      if_false, if_neg hne]

theorem readFraction_of_spells {fraction : Option (List Char)}
    (h : SpellsFraction text fraction rest) (hdigit : Text.Stops Char.isDigit rest)
    (hpoint : Text.Stops (· == '.') rest) (offset : Nat) :
    ∃ offset', readFraction ⟨offset, text⟩ = .ok (fraction, ⟨offset', rest⟩) := by
  unfold readFraction
  cases h with
  | none =>
    refine ⟨offset, ?_⟩
    split
    next more hp =>
      subst hp
      cases (Text.stops_cons _ _ _).1 hpoint
    · rfl
  | @point _ digits _ h =>
    obtain ⟨htake, hdrop⟩ := h.takeWhile hdigit
    have hne := h.ne_nil
    obtain ⟨d, more, rfl, hd⟩ := h.exists_cons
    refine ⟨offset + 1 + digits.length, ?_⟩
    simp only [htake, List.isEmpty_cons, List.isEmpty_iff, hne, Bool.false_eq_true, if_false,
      Cursor.skipWhile, Cursor.past, hdrop]

theorem readSign_of_spells {down : Bool} (h : SpellsSign text down rest)
    (hrest : ∃ d more, rest = d :: more ∧ d.isDigit = true) (offset : Nat) :
    ∃ offset', readSign ⟨offset, text⟩ = (down, ⟨offset', rest⟩) := by
  cases h with
  | none =>
    obtain ⟨d, more, rfl, hd⟩ := hrest
    refine ⟨offset, ?_⟩
    unfold readSign
    split
    next hp =>
      cases hp
      exact absurd hd (by decide)
    next hp =>
      cases hp
      exact absurd hd (by decide)
    · rfl
  | plus => exact ⟨offset + 1, rfl⟩
  | minus => exact ⟨offset + 1, rfl⟩

theorem readExponent_of_spells {exponent : Option (Bool × List Char)}
    (h : SpellsExponent text exponent rest) (hrest : Ends rest) (offset : Nat) :
    ∃ offset', readExponent ⟨offset, text⟩ = .ok (exponent, ⟨offset', rest⟩) := by
  unfold readExponent
  cases h with
  | none =>
    refine ⟨offset, ?_⟩
    cases text with
    | nil => rfl
    | cons d more =>
      have hd : isNumberPart d = false := (Text.stops_cons _ _ _).1 hrest
      simp only [isNumberPart, Bool.or_eq_false_iff, beq_eq_false_iff_ne] at hd
      have hmark : ¬ (d = 'e' ∨ d = 'E') := not_or.2 ⟨hd.1.2, hd.2⟩
      simp only [if_neg hmark]
  | letter hmark hsign h =>
    obtain ⟨offset', hread⟩ := readSign_of_spells hsign h.exists_cons (offset + 1)
    obtain ⟨htake, hdrop⟩ := h.takeWhile hrest.isDigit
    obtain ⟨d, more, rfl, hd⟩ := h.exists_cons
    refine ⟨offset' + ((d :: more).takeWhile Char.isDigit).length, ?_⟩
    simp only [if_pos hmark, Cursor.past, hread, hd, if_true, Cursor.skipWhile, hdrop, htake]

/-- Past the sign of a number, which tells whether it is negative. -/
def readMinus (c : Cursor) : Bool × Cursor :=
  match c.pending with
  | '-' :: rest => (true, c.past 1 rest)
  | _ => (false, c)

/-- Past a number from behind its sign. -/
def readUnsigned (minus : Bool) (c : Cursor) : Except Refusal (Numeral × Cursor) := do
  let (whole, c) ← readWhole c
  let (fraction, c) ← readFraction c
  let (exponent, c) ← readExponent c
  let written : Written := ⟨minus, whole, fraction, exponent⟩
  match written.value? with
  | some value => return (value, c)
  | none => .error ⟨.numberOutOfRange, c.offset - (written.excess.length - 1)⟩

theorem read_eq_readUnsigned (c : Cursor) : read c = readUnsigned (readMinus c).1 (readMinus c).2 :=
  rfl

theorem readMinus_of_spells {negative : Bool} (h : SpellsMinus text negative rest)
    (hrest : ∃ d more, rest = d :: more ∧ d.isDigit = true) (offset : Nat) :
    ∃ offset', readMinus ⟨offset, text⟩ = (negative, ⟨offset', rest⟩) := by
  cases h with
  | none =>
    obtain ⟨d, more, rfl, hd⟩ := hrest
    refine ⟨offset, ?_⟩
    unfold readMinus
    split
    next hp =>
      cases hp
      exact absurd hd (by decide)
    · rfl
  | minus => exact ⟨offset + 1, rfl⟩

/-- **A number is read to its end**, and its parts decide what it is. -/
theorem read_of_spells {w : Written} (h : w.Spells text rest) (hrest : Ends rest) (offset : Nat) :
    Answers (read ⟨offset, text⟩) w.value? rest := by
  obtain ⟨hminus, hwhole, hfraction, hexponent⟩ := h
  -- each part ends where the next one begins, for which the exponent comes first
  have hdigit : Text.Stops Char.isDigit _ := hexponent.stops hrest.isDigit (by decide) (by decide)
  have hpoint : Text.Stops (· == '.') _ := hexponent.stops hrest.point (by decide) (by decide)
  obtain ⟨offset₁, h₁⟩ := readMinus_of_spells hminus hwhole.exists_cons offset
  obtain ⟨offset₂, h₂⟩ := readWhole_of_spells hwhole (hfraction.stops hdigit) offset₁
  obtain ⟨offset₃, h₃⟩ := readFraction_of_spells hfraction hdigit hpoint offset₂
  obtain ⟨offset₄, h₄⟩ := readExponent_of_spells hexponent hrest offset₃
  rw [read_eq_readUnsigned, h₁, readUnsigned]
  simp only [h₂, h₃, h₄, bind, Except.bind]
  cases hvalue : w.value? with
  | none => exact ⟨_, rfl⟩
  | some value => exact ⟨offset₄, rfl⟩

/-! ## What reads as a number -/

theorem SpellsWhole.of_readWhole {c c' : Cursor} {whole : List Char}
    (h : readWhole c = .ok (whole, c')) : SpellsWhole c.pending whole c'.pending := by
  unfold readWhole at h
  split at h
  · cases h
  next d more hp =>
    by_cases hd : d.isDigit = true
    · rw [if_neg (by simp [hd])] at h
      rw [hp] at h ⊢
      by_cases hzero : d = '0'
      · subst hzero
        rw [if_pos rfl] at h
        split at h
        · cases h
        · cases h
          exact .zero
      · rw [if_neg hzero] at h
        cases h
        refine .digits ?_ ?_
        · rw [Cursor.skipWhile, hp]
          exact .of_isDigit hd
        · rw [List.takeWhile_cons_of_pos hd, List.head?_cons]
          exact fun h => hzero (Option.some.inj h)
    · rw [if_pos (by simpa using hd)] at h
      cases h

theorem SpellsFraction.of_readFraction {c c' : Cursor} {fraction : Option (List Char)}
    (h : readFraction c = .ok (fraction, c')) : SpellsFraction c.pending fraction c'.pending := by
  unfold readFraction at h
  split at h
  next more hp =>
    rw [hp]
    dsimp only at h
    split at h
    · cases h
    split at h
    · cases h
    next hne =>
      cases h
      exact .point ⟨List.takeWhile_append_dropWhile.symm, by simpa using hne,
        Text.forall_mem_takeWhile _ _⟩
  · cases h
    exact .none

theorem SpellsSign.readSign (c : Cursor) :
    SpellsSign c.pending (readSign c).1 (readSign c).2.pending := by
  unfold Numeral.readSign
  split
  next hp =>
    rw [hp]
    exact .plus
  next hp =>
    rw [hp]
    exact .minus
  · exact .none

theorem SpellsExponent.of_readExponent {c c' : Cursor} {exponent : Option (Bool × List Char)}
    (h : readExponent c = .ok (exponent, c')) :
    SpellsExponent c.pending exponent c'.pending := by
  unfold readExponent at h
  split at h
  next mark more hp =>
    split at h
    next hmark =>
      have hsign := SpellsSign.readSign (c.past 1 more)
      dsimp only at h
      split at h
      · cases h
      next d _ hd =>
        split at h
        next hdigit =>
          cases h
          rw [hp]
          refine .letter hmark hsign ?_
          rw [Cursor.skipWhile, hd]
          exact .of_isDigit hdigit
        · cases h
    · cases h
      exact .none
  · cases h
    exact .none

theorem SpellsMinus.readMinus (c : Cursor) :
    SpellsMinus c.pending (readMinus c).1 (readMinus c).2.pending := by
  unfold Numeral.readMinus
  split
  next hp =>
    rw [hp]
    exact .minus
  · exact .none

/-- **What reads as a number is one.** -/
theorem Written.Spells.of_read {c c' : Cursor} {n : Numeral} (h : read c = .ok (n, c')) :
    ∃ w : Written, w.Spells c.pending c'.pending ∧ w.value? = some n := by
  rw [read_eq_readUnsigned, readUnsigned] at h
  obtain ⟨⟨whole, c₁⟩, h₁, h⟩ := exists_of_bind h
  obtain ⟨⟨fraction, c₂⟩, h₂, h⟩ := exists_of_bind h
  obtain ⟨⟨exponent, c₃⟩, h₃, h⟩ := exists_of_bind h
  dsimp only at h
  split at h
  next value hvalue =>
    cases h
    exact ⟨_, ⟨SpellsMinus.readMinus c, .of_readWhole h₁, .of_readFraction h₂, .of_readExponent h₃⟩,
      hvalue⟩
  · cases h

end Numeral

end ScriptLexer
