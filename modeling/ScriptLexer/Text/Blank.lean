/-!
# Blank texts

* `Blank.ranges`: the characters with the Unicode property White_Space.
* `Blank.isBlank`: whether a text has no other character.
-/

namespace ScriptLexer.Blank

/-- The code points with the Unicode property White_Space. -/
def ranges : List (Nat × Nat) :=
  [(0x9, 0xd), (0x20, 0x20), (0x85, 0x85), (0xa0, 0xa0), (0x1680, 0x1680), (0x2000, 0x200a),
    (0x2028, 0x2029), (0x202f, 0x202f), (0x205f, 0x205f), (0x3000, 0x3000)]

/-- Whether a character is white space. -/
def isWhite (c : Char) : Bool :=
  ranges.any fun (first, last) => decide (first ≤ c.toNat ∧ c.toNat ≤ last)

/-- Whether all characters of a text are white space. -/
def isBlank (text : String) : Bool :=
  text.toList.all isWhite

end ScriptLexer.Blank
