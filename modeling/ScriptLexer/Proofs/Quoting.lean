import ScriptLexer.Dump.Quoted
import ScriptLexer.Settings.Cursor

/-!
# Quoted strings read back

Every character of a quoted text is written as an escape or as itself, and reading takes just that
back. So a quoted text reads as the text, whatever follows it, and it has no control characters.

* `Cursor.stringOnto_escape`: one character.
* `Cursor.string_quoted`: the content of a string.
* `Quoted.le_of_mem_quoteChars`: no control character is in a quoted text.
* `Cursor.stringOnto_lt`: reading a string moves on.
-/

namespace ScriptLexer

/-! ## One character -/

theorem hexValue?_hexDigit {n : Nat} (h : n < 16) : hexValue? (Quoted.hexDigit n) = some n := by
  have hall : ∀ n < 16, hexValue? (Quoted.hexDigit n) = some n := by decide
  exact hall n h

/-- A hexadecimal digit takes one byte. -/
theorem Quoted.utf8Size_hexDigit {n : Nat} (h : n < 16) : (hexDigit n).utf8Size = 1 := by
  have hall : ∀ n < 16, (hexDigit n).utf8Size = 1 := by decide
  exact hall n h

/-- A control character is told by its number. -/
theorem Cursor.numbered_escape {c : Char} (h : c.toNat < 0x20) (offset : Nat) (rest : List Char) :
    numbered ⟨offset, ['0', '0', Quoted.hexDigit (c.toNat / 16), Quoted.hexDigit (c.toNat % 16)] ++
      rest⟩ = .ok (c, ⟨offset + 4, rest⟩) := by
  have hhigh := hexValue?_hexDigit (n := c.toNat / 16) (by omega)
  have hlow := hexValue?_hexDigit (n := c.toNat % 16) (by omega)
  have hzero : hexValue? '0' = some 0 := by decide
  have hread : hex4 ⟨offset, ['0', '0', Quoted.hexDigit (c.toNat / 16),
      Quoted.hexDigit (c.toNat % 16)] ++ rest⟩ = .ok (c.toNat, ⟨offset + 4, rest⟩) := by
    have hvalue : ((0 * 16 + 0) * 16 + c.toNat / 16) * 16 + c.toNat % 16 = c.toNat := by omega
    have hwidth : Text.byteWidth ['0', '0', Quoted.hexDigit (c.toNat / 16),
        Quoted.hexDigit (c.toNat % 16)] = 4 := by
      simp only [Text.byteWidth, List.foldr_cons, List.foldr_nil,
        Quoted.utf8Size_hexDigit (n := c.toNat / 16) (by omega),
        Quoted.utf8Size_hexDigit (n := c.toNat % 16) (by omega)]
      rfl
    unfold hex4
    simp only [List.cons_append, List.nil_append, List.take_succ_cons, List.take_zero, hwidth,
      Nat.lt_irrefl, if_false, hzero, hhigh, hlow, hvalue]
    rfl
  unfold numbered
  rw [hread]
  simp only [bind, Except.bind]
  rw [if_neg (by omega), if_pos (by omega), Char.ofNat_toNat]
  rfl

section

variable {read rest : List Char} {offset : Nat}

theorem Cursor.stringOnto_quote :
    stringOnto read ⟨offset, '"' :: rest⟩ =
      .ok (String.ofList read.reverse, ⟨offset + 1, rest⟩) := by
  rw [stringOnto]
  rfl

theorem Cursor.stringOnto_backslash {d : Char} {c : Cursor}
    (h : escaped ⟨offset + 1, rest⟩ = .ok (d, c)) :
    stringOnto read ⟨offset, '\\' :: rest⟩ = stringOnto (d :: read) c := by
  have hne : '\\' ≠ '"' := by decide
  rw [stringOnto]
  simp only [past, if_neg hne, if_true]
  split <;> simp_all

theorem Cursor.stringOnto_plain {c : Char} (hquote : c ≠ '"') (hbackslash : c ≠ '\\')
    (hcontrol : ¬ c.toNat < 0x20) :
    stringOnto read ⟨offset, c :: rest⟩ = stringOnto (c :: read) ⟨offset + c.utf8Size, rest⟩ := by
  rw [stringOnto]
  simp only [if_neg hquote, if_neg hbackslash, if_neg hcontrol]

end

/-- **Reading takes back the written form of a character.** -/
theorem Cursor.stringOnto_escape (c : Char) (read : List Char) (offset : Nat) (rest : List Char) :
    ∃ offset', stringOnto read ⟨offset, Quoted.escape c ++ rest⟩ =
      stringOnto (c :: read) ⟨offset', rest⟩ := by
  unfold Quoted.escape
  split
  case h_8 hquote hbackslash _ _ _ _ _ =>
    split
    next hcontrol => exact ⟨_, stringOnto_backslash (numbered_escape hcontrol _ rest)⟩
    next hcontrol => exact ⟨_, stringOnto_plain hquote hbackslash hcontrol⟩
  -- the other characters have a letter of their own behind the backslash
  all_goals exact ⟨_, stringOnto_backslash rfl⟩

/-- **The content of a quoted text reads as the text**, whatever follows the closing quote. -/
theorem Cursor.string_quoted (text : List Char) (offset : Nat) (rest : List Char) :
    ∃ offset', string ⟨offset, text.flatMap Quoted.escape ++ '"' :: rest⟩ =
      .ok (String.ofList text, ⟨offset', rest⟩) := by
  have honto : ∀ (read : List Char) (offset : Nat), ∃ offset',
      stringOnto read ⟨offset, text.flatMap Quoted.escape ++ '"' :: rest⟩ =
        .ok (String.ofList (read.reverse ++ text), ⟨offset', rest⟩) := by
    induction text with
    | nil =>
      intro read offset
      refine ⟨offset + 1, ?_⟩
      rw [List.flatMap_nil, List.nil_append, stringOnto_quote, List.append_nil]
    | cons c text ih =>
      intro read offset
      obtain ⟨middle, hc⟩ := stringOnto_escape c read offset
        (text.flatMap Quoted.escape ++ '"' :: rest)
      obtain ⟨offset', htext⟩ := ih (c :: read) middle
      refine ⟨offset', ?_⟩
      rw [List.flatMap_cons, List.append_assoc, hc, htext, List.reverse_cons, List.append_assoc,
        List.singleton_append]
  exact honto [] offset

/-- No control character is in a written form. -/
theorem Quoted.le_of_mem_escape {c d : Char} (h : d ∈ escape c) : 0x20 ≤ d.toNat := by
  have hdigit : ∀ n < 16, 0x20 ≤ (hexDigit n).toNat := by decide
  unfold escape at h
  split at h
  case h_8 =>
    split at h
    next hcontrol =>
      simp only [List.mem_cons, List.not_mem_nil, or_false] at h
      rcases h with rfl | rfl | rfl | rfl | rfl | rfl
      · decide
      · decide
      · decide
      · decide
      · exact hdigit _ (by omega)
      · exact hdigit _ (by omega)
    next hcontrol =>
      obtain rfl := List.mem_singleton.1 h
      omega
  all_goals
    simp only [List.mem_cons, List.not_mem_nil, or_false] at h
    rcases h with rfl | rfl <;> decide

theorem Quoted.le_of_mem_quoteChars {text : List Char} {d : Char} (h : d ∈ quoteChars text) :
    0x20 ≤ d.toNat := by
  simp only [quoteChars, List.mem_cons, List.mem_append, List.mem_flatMap, List.not_mem_nil,
    or_false] at h
  rcases h with (rfl | ⟨c, -, hc⟩) | rfl
  · decide
  · exact le_of_mem_escape hc
  · decide

/-! ## Progress -/

/-- Reading a string moves on. -/
theorem Cursor.stringOnto_lt {read : List Char} {c c' : Cursor} {text : String}
    (h : stringOnto read c = .ok (text, c')) : c'.pending.length < c.pending.length := by
  fun_induction stringOnto read c with
  | case1 => cases h
  | case2 read c rest hp =>
    cases h
    simp [past, hp]
  | case3 => cases h
  | case4 read c rest hp hquote d c'' he hlt ih => exact Nat.lt_trans (ih h) hlt
  | case5 => cases h
  | case6 read c d rest hp hquote hbackslash hcontrol ih =>
    rw [hp]
    exact Nat.lt_trans (ih h) (Nat.lt_succ_self _)

end ScriptLexer
