import ScriptLexer.Number.Decimal

/-!
# Written forms of numbers

Both forms have the fewest digits that read back as the number. The plain form never has an
exponent and no fraction for an integer; the data form always has a fraction or an exponent.

* `Decimal.positional`: digits with a point where the power of ten puts it.
* `Binary64.plain`: the plain form, with words for infinity and not-a-number.
* `Binary64.dataForm?`: the data form, which non-finite numbers lack.
-/

namespace ScriptLexer

namespace Decimal

/-- The decimal digits of a natural number. -/
def numeral (n : Nat) : List Char :=
  Nat.toDigits 10 n

/-- The digits with a point where the exponent puts it, without a point for an integer. -/
def positional (d : Decimal) : List Char :=
  let digits := numeral d.digits
  if 0 ≤ d.exponent then digits ++ List.replicate d.exponent.toNat '0'
  else
    let places := (-d.exponent).toNat
    if places < digits.length then
      digits.take (digits.length - places) ++ '.' :: digits.drop (digits.length - places)
    else '0' :: '.' :: List.replicate (places - digits.length) '0' ++ digits

/-- The exponent of the first digit. -/
def leading (d : Decimal) : Int :=
  d.exponent + ((numeral d.digits).length - 1 : Nat)

/-- One digit, the others after a point if there are any, and a signed exponent. -/
def scientific (d : Decimal) : List Char :=
  let mantissa := match numeral d.digits with
    | first :: second :: more => first :: '.' :: second :: more
    | short => short
  let sign := if d.leading < 0 then '-' else '+'
  mantissa ++ 'e' :: sign :: numeral d.leading.natAbs

/-- Positional with a fraction while the first digit's exponent is from -5 to 15, scientific
otherwise. -/
def dataForm (d : Decimal) : List Char :=
  if -5 ≤ d.leading ∧ d.leading < 16 then
    if d.exponent < 0 then d.positional else d.positional ++ ['.', '0']
  else d.scientific

end Decimal

namespace Binary64

/-- A form with a minus sign in front for a negative number. -/
def signed (x : Binary64) (form : List Char) : String :=
  String.ofList (if x.isNegative then '-' :: form else form)

/-- The plain form: positional, ties among the shortest decimals going up. -/
def plain (x : Binary64) : String :=
  if x.isNaN then "NaN"
  else if !x.isFinite then x.signed ['i', 'n', 'f']
  else if x.magnitude = 0 then x.signed ['0']
  else x.signed (Decimal.shortest .upward x.magnitude).positional

/-- The data form, ties among the shortest decimals going to the even digit. -/
def dataForm? (x : Binary64) : Option String :=
  if !x.isFinite then none
  else if x.magnitude = 0 then some (x.signed ['0', '.', '0'])
  else some (x.signed (Decimal.shortest .even x.magnitude).dataForm)

end Binary64

end ScriptLexer
