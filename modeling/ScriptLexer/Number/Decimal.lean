import ScriptLexer.Number.Binary64

/-!
# Decimal numbers and the shortest one for a binary number

A decimal is a digit string with a power of ten. Reading one rounds it to the nearest binary
number; writing a binary number chooses the coarsest power of ten that has a multiple which reads
back as the same number, which is the fewest digits.

* `Decimal.magnitude`: the magnitude bits that a decimal reads as.
* `Decimal.multiple?`: the multiple of a power of ten that reads back, the nearer one if two do.
* `Decimal.shortest`: the decimal with the fewest digits.
-/

namespace ScriptLexer

/-- The number `digits * 10 ^ exponent`. -/
structure Decimal where
  digits : Nat
  exponent : Int
  deriving DecidableEq

/-- Which of two equally near neighbours is taken. -/
inductive Tie
  | upward
  | even
  deriving DecidableEq

namespace Decimal

/-- The magnitude bits of the binary number nearest to a decimal. -/
def magnitude (d : Decimal) : Nat :=
  if 0 ≤ d.exponent then
    Binary64.roundUnits (d.digits * Nat.pow 10 d.exponent.toNat * Binary64.unitsPerOne) 1
  else
    Binary64.roundUnits (d.digits * Binary64.unitsPerOne) (Nat.pow 10 (-d.exponent).toNat)

/-- The binary number nearest to a decimal. -/
def toBinary64 (d : Decimal) : Binary64 :=
  .ofMagnitude false d.magnitude

/-- All digits of a magnitude: a unit is `5 ^ 1074 / 10 ^ 1074`. -/
def exact (magnitude : Nat) : Decimal :=
  ⟨Binary64.unitsOf magnitude * Nat.pow 5 1074, -1074⟩

/-- The lower of the two multiples of `10 ^ exponent` around a number of units, with what is left
over and the divisor. -/
def below (units : Nat) (exponent : Int) : Nat × Nat × Nat :=
  if 0 ≤ exponent then
    let den := Binary64.unitsPerOne * Nat.pow 10 exponent.toNat
    (units / den, units % den, den)
  else
    let num := units * Nat.pow 10 (-exponent).toNat
    (num / Binary64.unitsPerOne, num % Binary64.unitsPerOne, Binary64.unitsPerOne)

/-- The multiple of `10 ^ exponent` that reads back as a magnitude: the nearer of the two around it
if both do. -/
def multiple? (tie : Tie) (magnitude : Nat) (exponent : Int) : Option Nat :=
  let (low, rest, den) := below (Binary64.unitsOf magnitude) exponent
  let lowReads := (⟨low, exponent⟩ : Decimal).magnitude = magnitude
  let highReads := (⟨low + 1, exponent⟩ : Decimal).magnitude = magnitude
  let preferHigh := den < 2 * rest ∨ (2 * rest = den ∧ (tie = .upward ∨ low % 2 = 1))
  if lowReads ∧ ¬(highReads ∧ preferHigh) then some low
  else if highReads then some (low + 1)
  else none

/-- The first multiple that reads back among `steps` powers of ten from `exponent` downwards, all
digits if there is none. -/
def search (tie : Tie) (magnitude : Nat) : Nat → Int → Decimal
  | 0, _ => exact magnitude
  | steps + 1, exponent =>
    match multiple? tie magnitude exponent with
    | some digits => ⟨digits, exponent⟩
    | none => search tie magnitude steps (exponent - 1)

/-- A power of ten above the magnitude: `30103 / 100000` is a little more than the logarithm of
two, and 1074 is the exponent of the unit. -/
def startExponent (magnitude : Nat) : Int :=
  ((Binary64.unitsOf magnitude).log2 + 1 - 1074 : Int) * 30103 / 100000 + 1

/-- The decimal with the fewest digits that reads back as the magnitude of a finite number. -/
def shortest (tie : Tie) (magnitude : Nat) : Decimal :=
  let start := startExponent magnitude
  search tie magnitude (start + 1075).toNat start

end Decimal

end ScriptLexer
