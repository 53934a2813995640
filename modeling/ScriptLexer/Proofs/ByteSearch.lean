import ScriptLexer.Text.Measure

/-!
# The end of a line, by its bytes

The first byte of a text that is a line feed begins the first character that is one, since every
byte of a longer character has its high bit set.

* `high_of_mem_encoding`: the bytes of longer characters.
* `byte_mem_encoding`, `lineFeed_mem_encoding`: which characters have a byte below 128.
* `splitBytes_lineEnd`: cutting a text at the first such byte cuts it in front of the first line
  feed, or nowhere.
-/

namespace ScriptLexer.Text

/-- Every byte of a character that takes more than one has its high bit set. -/
theorem high_of_mem_encoding {c : Char} (hc : 127 < c.val.toNat) {b : UInt8}
    (hb : b ∈ String.utf8EncodeChar c) : 128 ≤ b.toNat := by
  have high (n k : Nat) (hk : 128 ≤ k) (h : n + k < 256) : 128 ≤ (UInt8.ofNat (n + k)).toNat := by
    rw [UInt8.toNat_ofNat', Nat.mod_eq_of_lt h]; omega
  -- a longer character begins with the bits 110, 1110 or 11110 and goes on with the bits 10
  simp only [String.utf8EncodeChar, if_neg (Nat.not_le.2 hc)] at hb
  repeat' split at hb
  all_goals
    simp only [List.mem_cons, List.not_mem_nil, or_false] at hb
    rcases hb with rfl | rfl | rfl | rfl <;> exact high _ _ (by decide) (by omega)

/-- Of all characters only one below U+0080 itself has its byte in its UTF-8 form. -/
theorem byte_mem_encoding {a : Char} (ha : a.val.toNat ≤ 127) (c : Char) :
    UInt8.ofNat a.val.toNat ∈ String.utf8EncodeChar c ↔ c = a := by
  have hbyte : (UInt8.ofNat a.val.toNat).toNat = a.val.toNat := by
    rw [UInt8.toNat_ofNat', Nat.mod_eq_of_lt (by omega)]
  constructor
  · intro h
    have hc : c.val.toNat ≤ 127 := by
      refine Nat.not_lt.1 fun hc => ?_
      have := high_of_mem_encoding hc h
      omega
    -- a character of one byte is that byte
    simp only [String.utf8EncodeChar, if_pos hc, List.mem_singleton] at h
    have h1 := congrArg UInt8.toNat h
    rw [hbyte, UInt8.toNat_ofNat', Nat.mod_eq_of_lt (by omega)] at h1
    exact Char.ext (UInt32.toNat_inj.1 h1.symm)
  · rintro rfl
    simp only [String.utf8EncodeChar, if_pos ha, List.mem_singleton]

/-- **Only a line feed has the byte of a line feed in its UTF-8 form.** -/
theorem lineFeed_mem_encoding (c : Char) : 10 ∈ String.utf8EncodeChar c ↔ c = '\n' :=
  byte_mem_encoding (a := '\n') (by decide) c

/-- The bytes of a text are as many as its width. -/
theorem length_encoding (cs : List Char) :
    (cs.flatMap String.utf8EncodeChar).length = byteWidth cs := by
  induction cs with
  | nil => rfl
  | cons c cs ih =>
    rw [List.flatMap_cons, List.length_append, ih, String.length_utf8EncodeChar, byteWidth_cons]

/-- **Cutting at the first byte of a line feed** is cutting in front of the first line feed. -/
theorem splitBytes_lineEnd (cs : List Char) :
    splitBytes (bytesBefore 10 cs) cs = (cs.takeWhile (· ≠ '\n'), cs.dropWhile (· ≠ '\n')) := by
  induction cs with
  | nil => simp [splitBytes]
  | cons c cs ih =>
    by_cases hc : c = '\n'
    · subst hc
      have h0 : bytesBefore 10 ('\n' :: cs) = 0 := rfl
      rw [h0, splitBytes, if_neg (by decide)]
      simp
    · have hm : 10 ∉ String.utf8EncodeChar c := fun h => hc ((lineFeed_mem_encoding c).1 h)
      rw [bytesBefore]
      simp only [if_neg hm, String.length_utf8EncodeChar]
      rw [splitBytes, if_pos (Nat.le_add_right _ _), Nat.add_sub_cancel_left, ih]
      simp [hc]

end ScriptLexer.Text
