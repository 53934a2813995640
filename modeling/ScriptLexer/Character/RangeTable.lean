/-!
# Tables of characters

A property of characters is given by ranges of code points with a value each. The ranges are written
in hexadecimal digits, one after another: `3A9` is one code point, `3A9-3B2` a range with both ends.

* `RangeTable.ofParts`: a table from the ranges of each value.
* `RangeTable.value?`: the value of a character.
* `RangeTable.find_mem`: a value that is found belongs to a range that holds the character.
-/

namespace ScriptLexer

/-- Code points from the first to the last, with a value. -/
structure CodeRange (α : Type) where
  first : Nat
  last : Nat
  value : α

/-- Ranges in ascending order, of which no two overlap. -/
structure RangeTable (α : Type) where
  ranges : Array (CodeRange α)

namespace RangeTable

variable {α : Type}

/-- The number of some hexadecimal digits, the letters in upper case. -/
def readHex (digits : List Char) : Nat :=
  digits.foldl (fun n c => n * 16 + if c.isDigit then c.toNat - 48 else c.toNat - 55) 0

/-- The range that a word writes. -/
def readRange (value : α) (word : List Char) : CodeRange α :=
  match word.splitOn '-' with
  | [first, last] => ⟨readHex first, readHex last, value⟩
  | _ => ⟨readHex word, readHex word, value⟩

/-- The ranges that a text writes, with spaces or line feeds between them. -/
def readRanges (value : α) (text : String) : List (CodeRange α) :=
  let words := (text.toList.splitOn '\n').flatMap (·.splitOn ' ')
  (words.filter (!·.isEmpty)).map (readRange value)

/-- A table from the ranges of each value. -/
def ofParts (parts : List (α × String)) : RangeTable α :=
  let ranges := parts.flatMap fun (value, text) => readRanges value text
  ⟨(ranges.mergeSort fun a b => decide (a.first ≤ b.first)).toArray⟩

/-- A table of characters that have a property. -/
def ofText (text : String) : RangeTable Unit :=
  ofParts [((), text)]

/-- The value of a code point, looked for between two indices. -/
def find (ranges : Array (CodeRange α)) (code low high : Nat) : Option α :=
  if low < high then
    let middle := (low + high) / 2
    match ranges[middle]? with
    | none => none
    | some range =>
      if code < range.first then find ranges code low middle
      else if range.last < code then find ranges code (middle + 1) high
      else some range.value
  else none
termination_by high - low

/-- The value of a character, if the table has one. -/
def value? (t : RangeTable α) (c : Char) : Option α :=
  find t.ranges c.toNat 0 t.ranges.size

/-- Whether a table of characters has a character. -/
def contains (t : RangeTable Unit) (c : Char) : Bool :=
  (t.value? c).isSome

/-- A value that is found belongs to a range that holds the code point. -/
theorem find_mem {ranges : Array (CodeRange α)} {code low high : Nat} {value : α}
    (h : find ranges code low high = some value) :
    ∃ range ∈ ranges, range.first ≤ code ∧ code ≤ range.last ∧ range.value = value := by
  fun_induction find ranges code low high with
  | case1 => cases h
  | case2 low high hlt middle range hr hc ih => exact ih h
  | case3 low high hlt middle range hr hc hl ih => exact ih h
  | case4 low high hlt middle range hr hc hl =>
    cases h
    exact ⟨range, Array.mem_of_getElem? hr, by omega, by omega, rfl⟩
  | case5 => cases h

/-- The value of a character belongs to a range of the table that holds the character. -/
theorem value?_mem {t : RangeTable α} {c : Char} {value : α} (h : t.value? c = some value) :
    ∃ range ∈ t.ranges,
      range.first ≤ c.toNat ∧ c.toNat ≤ range.last ∧ range.value = value :=
  find_mem h

end RangeTable

end ScriptLexer
