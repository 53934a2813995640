import ScriptLexer.Proofs.DataGrammar
import ScriptLexer.Proofs.Quoting

/-!
# Strings of data are read as the grammar has them

A string reads as its content with every escape undone, and whatever reads as a string is one of the
grammar: reading takes exactly the texts that spell a string, and says what they spell.

* `Cursor.hex4_of_spells`, `SpellsHex.of_hex4`: four hexadecimal digits.
* `Cursor.escaped_of_spells`, `SpellsChar.of_escaped`: one escape.
* `Cursor.string_of_spells`, `SpellsString.of_string`: a whole string.
* `SpellsString.quote`: quoted texts are among the spellings.
-/

namespace ScriptLexer

/-! ## Four digits -/

/-- No four characters are shorter than four bytes. -/
theorem four_le_byteWidth (d₁ d₂ d₃ d₄ : Char) : 4 ≤ Text.byteWidth [d₁, d₂, d₃, d₄] := by
  have h₁ := d₁.utf8Size_pos
  have h₂ := d₂.utf8Size_pos
  have h₃ := d₃.utf8Size_pos
  have h₄ := d₄.utf8Size_pos
  simp only [Text.byteWidth, List.foldr_cons, List.foldr_nil]
  omega

theorem Cursor.hex4_of_spells {text rest : List Char} {n : Nat} (h : SpellsHex text n rest)
    (offset : Nat) : hex4 ⟨offset, text⟩ = .ok (n, ⟨offset + 4, rest⟩) := by
  obtain ⟨h₁, h₂, h₃, h₄⟩ := h
  rename_i d₁ d₂ d₃ d₄ _ _ _ _
  have hwidth := four_le_byteWidth d₁ d₂ d₃ d₄
  unfold hex4
  simp only [List.take_succ_cons, List.take_zero, if_neg (Nat.not_lt.2 hwidth), h₁, h₂, h₃, h₄]
  rfl

theorem SpellsHex.of_hex4 {c c' : Cursor} {n : Nat} (h : c.hex4 = .ok (n, c')) :
    SpellsHex c.pending n c'.pending := by
  unfold Cursor.hex4 at h
  split at h
  · cases h
  split at h
  next hp =>
    split at h
    next h₁ h₂ h₃ h₄ =>
      cases h
      rw [hp]
      exact .four h₁ h₂ h₃ h₄
    · cases h
  · cases h

/-! ## One escape -/

theorem Cursor.escaped_of_letter {letter c : Char} (h : letterEscape? letter = some c)
    (offset : Nat) (rest : List Char) :
    escaped ⟨offset, letter :: rest⟩ = .ok (c, ⟨offset + 1, rest⟩) := by
  have hne : letter ≠ 'u' := by
    rintro rfl
    cases h
  unfold escaped
  simp only [if_neg hne, h]
  rfl

theorem Cursor.escaped_of_number {text rest : List Char} {n : Nat} (h : SpellsHex text n rest)
    (hhigh : ¬ IsHighHalf n) (hlow : ¬ IsLowHalf n) (offset : Nat) :
    escaped ⟨offset, 'u' :: text⟩ = .ok (.ofNat n, ⟨offset + 5, rest⟩) := by
  unfold IsHighHalf at hhigh
  unfold IsLowHalf at hlow
  have hread := hex4_of_spells h (offset + 1)
  unfold escaped numbered
  simp only [if_true, past, hread, bind, Except.bind]
  rw [if_neg hlow, if_pos (by omega)]
  rfl

theorem Cursor.escaped_of_pair {text middle rest : List Char} {high low : Nat}
    (h : SpellsHex text high ('\\' :: 'u' :: middle)) (hhigh : IsHighHalf high)
    (h' : SpellsHex middle low rest) (hlow : IsLowHalf low) (offset : Nat) :
    escaped ⟨offset, 'u' :: text⟩ =
      .ok (.ofNat ((high - 0xd800) * 0x400 + (low - 0xdc00) + 0x10000), ⟨offset + 11, rest⟩) := by
  unfold IsHighHalf at hhigh
  unfold IsLowHalf at hlow
  have hread := hex4_of_spells h (offset + 1)
  have hread' := hex4_of_spells h' (offset + 1 + 4 + 1 + 1)
  unfold escaped numbered
  simp only [if_true, past, hread, bind, Except.bind]
  rw [if_neg (by omega), if_neg (by omega)]
  simp only [surrogateMark, if_true, past, hread', if_pos hlow]
  rfl

theorem Cursor.pending_of_surrogateMark {c c' : Cursor} {mark : Char}
    (h : c.surrogateMark mark = .ok c') : c.pending = mark :: c'.pending := by
  unfold surrogateMark at h
  split at h
  · cases h
  next hp =>
    split at h
    next hmark =>
      cases h
      rw [hp, hmark]
      rfl
    · cases h

theorem SpellsChar.of_numbered {c c' : Cursor} {d : Char} (h : c.numbered = .ok (d, c')) :
    SpellsChar ('\\' :: 'u' :: c.pending) d c'.pending := by
  unfold Cursor.numbered at h
  obtain ⟨⟨high, c₁⟩, h₁, h⟩ := exists_of_bind h
  have hhigh := SpellsHex.of_hex4 h₁
  dsimp only at h
  split at h
  · cases h
  next hnotLow =>
    split at h
    next hsingle =>
      cases h
      exact .number hhigh (by unfold IsHighHalf; omega) hnotLow
    next hpair =>
      -- neither a second half nor a character by itself, so a first half
      obtain ⟨c₂, h₂, h⟩ := exists_of_bind h
      obtain ⟨c₃, h₃, h⟩ := exists_of_bind h
      obtain ⟨⟨low, c₄⟩, h₄, h⟩ := exists_of_bind h
      dsimp only at h
      split at h
      next hlow =>
        simp only [pure, Except.pure, Except.ok.injEq, Prod.mk.injEq] at h
        obtain ⟨rfl, rfl⟩ := h
        rw [Cursor.pending_of_surrogateMark h₂, Cursor.pending_of_surrogateMark h₃] at hhigh
        exact .pair hhigh (by unfold IsHighHalf; omega) (SpellsHex.of_hex4 h₄) hlow
      · cases h

/-- What reads as an escape is one. -/
theorem SpellsChar.of_escaped {c c' : Cursor} {d : Char} (h : c.escaped = .ok (d, c')) :
    SpellsChar ('\\' :: c.pending) d c'.pending := by
  unfold Cursor.escaped at h
  split at h
  · cases h
  next letter rest hp =>
    rw [hp]
    by_cases hu : letter = 'u'
    · subst hu
      rw [if_pos rfl] at h
      exact of_numbered h
    · rw [if_neg hu] at h
      split at h
      next hletter =>
        cases h
        exact .letter hletter
      · cases h

/-! ## A string -/

/-- **A character reads as itself, however it is spelled.** -/
theorem Cursor.stringOnto_of_spells {text rest : List Char} {c : Char}
    (h : SpellsChar text c rest) (read : List Char) (offset : Nat) :
    ∃ offset', stringOnto read ⟨offset, text⟩ = stringOnto (c :: read) ⟨offset', rest⟩ := by
  cases h with
  | plain hquote hbackslash hcontrol =>
    exact ⟨_, stringOnto_plain hquote hbackslash (Nat.not_lt.2 hcontrol)⟩
  | letter h => exact ⟨_, stringOnto_backslash (escaped_of_letter h _ _)⟩
  | number h hhigh hlow => exact ⟨_, stringOnto_backslash (escaped_of_number h hhigh hlow _)⟩
  | pair h hhigh h' hlow => exact ⟨_, stringOnto_backslash (escaped_of_pair h hhigh h' hlow _)⟩

theorem Cursor.stringOnto_of_spellsChars {text rest cs : List Char}
    (h : SpellsChars text cs ('"' :: rest)) (read : List Char) (offset : Nat) : ∃ offset',
    stringOnto read ⟨offset, text⟩ = .ok (String.ofList (read.reverse ++ cs), ⟨offset', rest⟩) := by
  generalize hend : '"' :: rest = behind at h
  induction h generalizing read offset with
  | nil =>
    subst hend
    exact ⟨_, by rw [stringOnto_quote, List.append_nil]⟩
  | cons hc hmore ih =>
    obtain ⟨middle, hread⟩ := stringOnto_of_spells hc read offset
    obtain ⟨offset', hrest⟩ := ih (_ :: read) middle hend
    refine ⟨offset', ?_⟩
    rw [hread, hrest, List.reverse_cons, List.append_assoc, List.singleton_append]

/-- **A string reads as its content.** -/
theorem Cursor.string_of_spells {text rest : List Char} {content : String}
    (h : SpellsChars text content.toList ('"' :: rest)) (offset : Nat) :
    ∃ offset', string ⟨offset, text⟩ = .ok (content, ⟨offset', rest⟩) := by
  obtain ⟨offset', hread⟩ := stringOnto_of_spellsChars h [] offset
  refine ⟨offset', ?_⟩
  rw [string, hread, List.reverse_nil, List.nil_append, String.ofList_toList]

theorem SpellsChars.of_stringOnto {read : List Char} {c c' : Cursor} {content : String}
    (h : Cursor.stringOnto read c = .ok (content, c')) :
    ∃ cs, content = String.ofList (read.reverse ++ cs) ∧
      SpellsChars c.pending cs ('"' :: c'.pending) := by
  fun_induction Cursor.stringOnto read c with
  | case1 => cases h
  | case2 read c rest hp =>
    cases h
    refine ⟨[], by rw [List.append_nil], ?_⟩
    rw [hp]
    exact .nil
  | case3 => cases h
  | case4 read c rest d c'' he hp hquote hlt ih =>
    obtain ⟨cs, hcontent, hspells⟩ := ih h
    refine ⟨d :: cs, ?_, ?_⟩
    · rw [hcontent, List.reverse_cons, List.append_assoc, List.singleton_append]
    · have hescape := SpellsChar.of_escaped he
      rw [hp]
      exact .cons hescape hspells
  | case5 => cases h
  | case6 read c d rest hp hquote hbackslash hcontrol ih =>
    obtain ⟨cs, hcontent, hspells⟩ := ih h
    refine ⟨d :: cs, ?_, ?_⟩
    · rw [hcontent, List.reverse_cons, List.append_assoc, List.singleton_append]
    · rw [hp]
      exact .cons (.plain hquote hbackslash (Nat.not_lt.1 hcontrol)) hspells

/-- **What reads as a string is one.** -/
theorem SpellsString.of_string {c c' : Cursor} {content : String}
    (h : c.string = .ok (content, c')) : SpellsString ('"' :: c.pending) content c'.pending := by
  obtain ⟨cs, hcontent, hspells⟩ := SpellsChars.of_stringOnto h
  refine .quoted ?_
  rw [hcontent, String.toList_ofList]
  exact hspells

/-- A text begins with one string at most. -/
theorem SpellsString.unique {text rest rest' : List Char} {content content' : String}
    (h : SpellsString text content rest) (h' : SpellsString text content' rest') :
    content = content' ∧ rest = rest' := by
  obtain ⟨h⟩ := h
  obtain ⟨h'⟩ := h'
  obtain ⟨offset, hread⟩ := Cursor.string_of_spells h 0
  obtain ⟨offset', hread'⟩ := Cursor.string_of_spells h' 0
  rw [hread] at hread'
  cases hread'
  exact ⟨rfl, rfl⟩

/-! ## Quoted texts -/

/-- The written form of a character is one of its spellings. -/
theorem SpellsChar.escape (c : Char) (rest : List Char) :
    SpellsChar (Quoted.escape c ++ rest) c rest := by
  unfold Quoted.escape
  split
  case h_8 hquote hbackslash _ _ _ _ _ =>
    split
    next hcontrol =>
      have hread : Cursor.escaped ⟨0, 'u' :: (['0', '0', Quoted.hexDigit (c.toNat / 16),
          Quoted.hexDigit (c.toNat % 16)] ++ rest)⟩ = _ := Cursor.numbered_escape hcontrol 1 rest
      exact of_escaped hread
    next hcontrol => exact .plain hquote hbackslash (Nat.not_lt.1 hcontrol)
  -- the other characters have a letter of their own behind the backslash
  all_goals exact .letter rfl

/-- A quoted text spells the text. -/
theorem SpellsString.quote (content : String) (rest : List Char) :
    SpellsString ((Quoted.quote content).toList ++ rest) content rest := by
  have hchars : ∀ cs : List Char,
      SpellsChars (cs.flatMap Quoted.escape ++ '"' :: rest) cs ('"' :: rest) := by
    intro cs
    induction cs with
    | nil => exact .nil
    | cons c cs ih =>
      rw [List.flatMap_cons, List.append_assoc]
      exact .cons (.escape c _) ih
  have htext : (Quoted.quote content).toList ++ rest =
      '"' :: (content.toList.flatMap Quoted.escape ++ '"' :: rest) := by
    simp [Quoted.quote, Quoted.quoteChars]
  rw [htext]
  exact .quoted (hchars _)

end ScriptLexer
