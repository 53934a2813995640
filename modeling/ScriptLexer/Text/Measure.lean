/-!
# Sizes of texts

Positions in a text are counted in bytes of its UTF-8 form, lines in line feeds.

* `byteWidth`, `newlines`: the two sizes that a position advances by.
* `splitBytes`: the longest beginning of a text that fits into a number of bytes.
* `bytesBefore`: where a byte first occurs in the UTF-8 form.
* `slice?`: the characters at a byte range, if it lies on character boundaries.
* `byteWidth_toList`: the width of a string's characters is its size.
* `slice?_append`: a part of a text is the slice at its bytes.
-/

namespace ScriptLexer.Text

/-- The bytes of a text's UTF-8 form. -/
def byteWidth (cs : List Char) : Nat :=
  cs.foldr (fun c width => c.utf8Size + width) 0

/-- The line feeds in a text. -/
def newlines (cs : List Char) : Nat :=
  cs.count '\n'

/-- The longest beginning of a text that fits into `n` bytes, and the rest. -/
def splitBytes : Nat → List Char → List Char × List Char
  | _, [] => ([], [])
  | n, c :: cs =>
    if c.utf8Size ≤ n then
      let (before, after) := splitBytes (n - c.utf8Size) cs
      (c :: before, after)
    else ([], c :: cs)

/-- How many bytes of a text's UTF-8 form come before the first byte `b`: all of them when it
does not occur. -/
def bytesBefore (b : UInt8) : List Char → Nat
  | [] => 0
  | c :: cs =>
    let bytes := String.utf8EncodeChar c
    if b ∈ bytes then bytes.idxOf b else bytes.length + bytesBefore b cs

/-- What follows the first `n` bytes of a text, if they end on a character boundary. -/
def dropBytes? : Nat → List Char → Option (List Char)
  | 0, cs => some cs
  | _ + 1, [] => none
  | n + 1, c :: cs => if c.utf8Size ≤ n + 1 then dropBytes? (n + 1 - c.utf8Size) cs else none

/-- The first `n` bytes of a text, if they end on a character boundary. -/
def takeBytes? : Nat → List Char → Option (List Char)
  | 0, _ => some []
  | _ + 1, [] => none
  | n + 1, c :: cs =>
    if c.utf8Size ≤ n + 1 then (takeBytes? (n + 1 - c.utf8Size) cs).map (c :: ·) else none

/-- The characters from byte `start` up to byte `stop`, if both are character boundaries of the
text in this order. -/
def slice? (cs : List Char) (start stop : Nat) : Option (List Char) :=
  if start ≤ stop then (dropBytes? start cs).bind (takeBytes? (stop - start)) else none

@[simp] theorem byteWidth_nil : byteWidth [] = 0 := rfl

@[simp] theorem byteWidth_cons (c : Char) (cs : List Char) :
    byteWidth (c :: cs) = c.utf8Size + byteWidth cs := rfl

@[simp] theorem byteWidth_append (cs ds : List Char) :
    byteWidth (cs ++ ds) = byteWidth cs + byteWidth ds := by
  induction cs with
  | nil => simp
  | cons c cs ih => simp [ih, Nat.add_assoc]

/-- The bytes of a string are those of its characters. -/
@[simp] theorem byteWidth_toList (s : String) : byteWidth s.toList = s.utf8ByteSize := by
  have h (cs : List Char) : byteWidth cs = (String.ofList cs).utf8ByteSize := by
    induction cs with
    | nil => rfl
    | cons c cs ih =>
      rw [byteWidth_cons, ih, show c :: cs = [c] ++ cs from rfl, String.ofList_append,
        String.utf8ByteSize_append, ← String.singleton_eq_ofList, String.utf8ByteSize_singleton]
  rw [h, String.ofList_toList]

/-- Every character takes a byte. -/
theorem length_le_byteWidth (cs : List Char) : cs.length ≤ byteWidth cs := by
  induction cs with
  | nil => exact Nat.le_refl 0
  | cons c cs ih =>
    have := c.utf8Size_pos
    simp only [List.length_cons, byteWidth_cons]
    omega

@[simp] theorem newlines_nil : newlines [] = 0 := rfl

@[simp] theorem newlines_append (cs ds : List Char) :
    newlines (cs ++ ds) = newlines cs + newlines ds := by
  simp [newlines]

/-- Splitting loses nothing. -/
theorem splitBytes_append (n : Nat) (cs : List Char) :
    (splitBytes n cs).1 ++ (splitBytes n cs).2 = cs := by
  induction cs generalizing n with
  | nil => simp [splitBytes]
  | cons c cs ih =>
    rw [splitBytes]
    split
    · simpa using ih _
    · rfl

/-- The bytes of a text in front of another are the first of the two together. -/
theorem takeBytes?_append (cs ds : List Char) : takeBytes? (byteWidth cs) (cs ++ ds) = some cs := by
  induction cs with
  | nil => rw [byteWidth_nil, takeBytes?]
  | cons c cs ih =>
    obtain ⟨n, hn⟩ := Nat.exists_eq_succ_of_ne_zero (Nat.ne_of_gt c.utf8Size_pos)
    have hw : byteWidth (c :: cs) = n + byteWidth cs + 1 := by rw [byteWidth_cons, hn]; omega
    rw [hw, List.cons_append, takeBytes?, if_pos (by omega)]
    have hrest : n + byteWidth cs + 1 - c.utf8Size = byteWidth cs := by omega
    rw [hrest, ih, Option.map_some]

theorem dropBytes?_append (cs ds : List Char) : dropBytes? (byteWidth cs) (cs ++ ds) = some ds := by
  induction cs with
  | nil => rw [byteWidth_nil, dropBytes?, List.nil_append]
  | cons c cs ih =>
    obtain ⟨n, hn⟩ := Nat.exists_eq_succ_of_ne_zero (Nat.ne_of_gt c.utf8Size_pos)
    have hw : byteWidth (c :: cs) = n + byteWidth cs + 1 := by rw [byteWidth_cons, hn]; omega
    rw [hw, List.cons_append, dropBytes?, if_pos (by omega)]
    have hrest : n + byteWidth cs + 1 - c.utf8Size = byteWidth cs := by omega
    rw [hrest, ih]

/-- **A part of a text is the slice at its bytes.** -/
theorem slice?_append (before cs after : List Char) :
    slice? (before ++ (cs ++ after)) (byteWidth before) (byteWidth before + byteWidth cs) =
      some cs := by
  rw [slice?, if_pos (Nat.le_add_right _ _), dropBytes?_append, Option.bind_some,
    Nat.add_sub_cancel_left, takeBytes?_append]

end ScriptLexer.Text
