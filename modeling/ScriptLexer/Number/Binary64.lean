/-!
# Binary floating-point numbers

A number is a 64-bit word: a sign, eleven bits of exponent and 52 of fraction. The finite
magnitudes are the multiples `m * 2 ^ e` of one unit, `2 ^ (-1074)`, with `m` below `2 ^ 53`, so
every question about them is a question about natural numbers of units.

* `Binary64.units`: the magnitude of a finite number, counted in units.
* `Binary64.roundUnits`: the magnitude bits of the number nearest to a ratio of units.
* `Binary64.ofRatio`: the number nearest to a ratio.
* `Binary64.mul`, `Binary64.div`: the rounded operations on magnitudes.
* `Binary64.numericEq`: numeric equality, where not-a-number equals nothing and the two zeros are
  equal.
-/

namespace ScriptLexer

/-- A floating-point number, by its 64-bit word. -/
structure Binary64 where
  bits : UInt64
  deriving DecidableEq

/-- The quotient rounded to the nearest integer, a half to the even neighbour. -/
def divNearest (num den : Nat) : Nat :=
  let low := num / den
  let twice := 2 * (num % den)
  if twice < den ∨ (twice = den ∧ low % 2 = 0) then low else low + 1

namespace Binary64

/-- The sign of a word, as a number. -/
def signBit : Nat := 0x8000000000000000

/-- How many fractions, and so how many magnitudes, a binade has. -/
def binadeSize : Nat := 0x10000000000000

/-- The magnitude bits of infinity; those of not-a-number are larger. -/
def infinityBits : Nat := 0x7ff0000000000000

/-- How many units make one. -/
def unitsPerOne : Nat := Nat.pow 2 1074

/-- The bits below the sign. -/
def magnitude (x : Binary64) : Nat :=
  x.bits.toNat % signBit

def isNegative (x : Binary64) : Bool :=
  decide (signBit ≤ x.bits.toNat)

def isNaN (x : Binary64) : Bool :=
  decide (infinityBits < x.magnitude)

def isFinite (x : Binary64) : Bool :=
  decide (x.magnitude < infinityBits)

/-- The number with a sign and magnitude bits. -/
def ofMagnitude (negative : Bool) (magnitude : Nat) : Binary64 :=
  ⟨UInt64.ofNat (if negative then signBit + magnitude else magnitude)⟩

/-- How many units the magnitude bits of a finite number stand for. The first two binades have
unit spacing; every later one doubles it. -/
def unitsOf (magnitude : Nat) : Nat :=
  let binade := magnitude / binadeSize
  let fraction := magnitude % binadeSize
  if binade = 0 then fraction else (binadeSize + fraction) * Nat.pow 2 (binade - 1)

/-- The magnitude of a finite number in units of `2 ^ (-1074)`. -/
def units (x : Binary64) : Nat :=
  unitsOf x.magnitude

/-- The magnitude bits of the number nearest to `num / den` units, a tie going to the even
significand, and those of infinity when that is past the last finite number.

The spacing is `2 ^ e` where the quotient has `53 + e` bits; counting spacings from zero numbers the
magnitudes in order, so a carry into the next binade needs no care. -/
def roundUnits (num den : Nat) : Nat :=
  let e := (num / den).log2 - 52
  min infinityBits (e * binadeSize + divNearest num (den * Nat.pow 2 e))

/-- The non-negative number nearest to `num / den`. -/
def ofRatio (num den : Nat) : Binary64 :=
  ofMagnitude false (roundUnits (num * unitsPerOne) den)

/-- The number nearest to a natural number. -/
def ofNat (n : Nat) : Binary64 :=
  ofRatio n 1

def neg (x : Binary64) : Binary64 :=
  ofMagnitude (!x.isNegative) x.magnitude

/-- The rounded product of two finite non-negative numbers. -/
def mul (x y : Binary64) : Binary64 :=
  ofMagnitude false (roundUnits (x.units * y.units) unitsPerOne)

/-- The rounded quotient of two finite non-negative numbers, the second not zero. -/
def div (x y : Binary64) : Binary64 :=
  ofRatio x.units y.units

/-- Numeric equality: not-a-number differs from everything, the two zeros are equal. -/
def numericEq (x y : Binary64) : Bool :=
  !x.isNaN && !y.isNaN && (x.bits == y.bits || (x.magnitude == 0 && y.magnitude == 0))

end Binary64

end ScriptLexer
