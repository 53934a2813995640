import ScriptLexer.Settings.Cursor

/-!
# Numbers of data

A number without a fraction or an exponent is an integer if it fits 64 bits with its sign; every
other one is a binary floating-point number. Its leading digits that fit 64 bits are scaled by one
power of ten, so the result is near the written value and need not be the nearest.

* `Numeral.read`: past a number.
* `Numeral.Written.value?`: the value of what is written, none when it is past the finite ones.
-/

namespace ScriptLexer

/-- A number as data: a natural number, a negative integer by its magnitude, or neither. -/
inductive Numeral
  | natural (value : UInt64)
  | negative (magnitude : Nat)
  | float (value : Binary64)
  deriving DecidableEq

namespace Numeral

/-- What a number is where another value was expected. -/
def found : Numeral → Found
  | natural value => .integer value.toNat
  | negative magnitude => .integer (-magnitude)
  | float value => .float value

/-- The parts of a written number. -/
structure Written where
  negative : Bool
  whole : List Char
  fraction : Option (List Char)
  exponent : Option (Bool × List Char)
  deriving DecidableEq

/-- Put digits behind a number while it stays within a limit: the number and the digits that are
left. -/
def fit (limit : Nat) : Nat → List Char → Nat × List Char
  | n, [] => (n, [])
  | n, d :: ds =>
    let longer := n * 10 + (d.toNat - '0'.toNat)
    if longer ≤ limit then fit limit longer ds else (n, d :: ds)

/-- The largest exponent that is counted. -/
def exponentLimit : Nat := 0x7fffffff

/-- The largest significand that is kept, and the largest integer. -/
def significandLimit : Nat := 0xffffffffffffffff

/-- The largest magnitude of a negative integer. -/
def negativeLimit : Nat := 0x8000000000000000

/-- The largest power of ten that is a finite number. -/
def tenLimit : Nat := 308

def tenPower (n : Nat) : Binary64 := .ofNat (Nat.pow 10 n)

/-- A non-negative number times a power of ten, rounded once for each power of ten that the scale is
taken apart into; none past the finite numbers. -/
def scaled? (x : Binary64) (exponent : Int) : Option Binary64 :=
  if exponent.natAbs ≤ tenLimit then
    if 0 ≤ exponent then
      let product := x.mul (tenPower exponent.natAbs)
      if product.isFinite then some product else none
    else some (x.div (tenPower exponent.natAbs))
  else if x.magnitude = 0 then some x
  else if 0 ≤ exponent then none
  else scaled? (x.div (tenPower tenLimit)) (exponent + tenLimit)
termination_by exponent.natAbs
decreasing_by simp only [tenLimit] at *; omega

namespace Written

/-- The significand and the power of ten that the digits alone give. Digits of the whole part that
do not fit only raise the power; digits of the fraction that do not fit are dropped. -/
def significand (w : Written) : Nat × Int :=
  let (whole, dropped) := fit significandLimit 0 w.whole
  let fraction := w.fraction.getD []
  let (all, unused) := fit significandLimit whole fraction
  (all, dropped.length - (fraction.length - unused.length : Nat))

/-- The digits of the exponent from the one that takes it past its limit. -/
def excess (w : Written) : List Char :=
  match w.exponent with
  | some (_, digits) => (fit exponentLimit 0 digits).2
  | none => []

/-- The magnitude as a floating-point number, none past the finite ones. -/
def float? (w : Written) : Option Binary64 :=
  let (digits, scale) := w.significand
  match w.exponent with
  | none => scaled? (.ofNat digits) scale
  | some (down, exponent) =>
    match fit exponentLimit 0 exponent with
    | (e, []) => scaled? (.ofNat digits) (if down then scale - e else scale + e)
    | _ => if digits = 0 ∨ down then some (.ofNat 0) else none

/-- The value of what is written: an integer where it is written as one and fits. -/
def value? (w : Written) : Option Numeral :=
  let magnitude := Nat.ofDigitChars 10 w.whole 0
  if w.fraction.isNone ∧ w.exponent.isNone ∧ !w.negative ∧ magnitude ≤ significandLimit then
    some (.natural magnitude.toUInt64)
  else if w.fraction.isNone ∧ w.exponent.isNone ∧ w.negative ∧ magnitude ≠ 0 ∧
      magnitude ≤ negativeLimit then
    some (.negative magnitude)
  else w.float?.map fun x => .float (if w.negative then x.neg else x)

end Written

/-- Past the digits before the point: a zero stands alone. -/
def readWhole (c : Cursor) : Except Refusal (List Char × Cursor) :=
  match c.pending with
  | [] => c.refuse .eofInValue
  | d :: rest =>
    if !d.isDigit then c.refuseNext .invalidNumber
    else if d = '0' then
      if rest.head?.any Char.isDigit then (c.past 1 rest).refuseNext .invalidNumber
      else .ok (['0'], c.past 1 rest)
    else .ok (c.pending.takeWhile Char.isDigit, c.skipWhile Char.isDigit)

/-- Past a point and at least one digit, if there is a point. -/
def readFraction (c : Cursor) : Except Refusal (Option (List Char) × Cursor) :=
  match c.pending with
  | '.' :: rest =>
    let digits := rest.takeWhile Char.isDigit
    let c := c.past 1 rest
    if rest.isEmpty then c.refuseNext .eofInValue
    else if digits.isEmpty then c.refuseNext .invalidNumber
    else .ok (some digits, c.skipWhile Char.isDigit)
  | _ => .ok (none, c)

/-- Past the sign of an exponent, which tells whether it counts downwards. -/
def readSign (c : Cursor) : Bool × Cursor :=
  match c.pending with
  | '+' :: rest => (false, c.past 1 rest)
  | '-' :: rest => (true, c.past 1 rest)
  | _ => (false, c)

/-- Past the letter of an exponent, its sign and at least one digit, if there is the letter. -/
def readExponent (c : Cursor) : Except Refusal (Option (Bool × List Char) × Cursor) :=
  match c.pending with
  | mark :: rest =>
    if mark = 'e' ∨ mark = 'E' then
      let (down, c) := readSign (c.past 1 rest)
      match c.pending with
      | [] => c.refuse .eofInValue
      | d :: _ =>
        if d.isDigit then
          .ok (some (down, c.pending.takeWhile Char.isDigit), c.skipWhile Char.isDigit)
        else c.refuseNext .invalidNumber
    else .ok (none, c)
  | [] => .ok (none, c)

/-- Past a number, a minus sign included. A number past the finite ones is refused behind the digit
that tells it: the last one, or the one that takes the exponent past its limit. -/
def read (c : Cursor) : Except Refusal (Numeral × Cursor) := do
  let (minus, c) := match c.pending with
    | '-' :: rest => (true, c.past 1 rest)
    | _ => (false, c)
  let (whole, c) ← readWhole c
  let (fraction, c) ← readFraction c
  let (exponent, c) ← readExponent c
  let written : Written := ⟨minus, whole, fraction, exponent⟩
  match written.value? with
  | some value => return (value, c)
  | none => .error ⟨.numberOutOfRange, c.offset - (written.excess.length - 1)⟩

end Numeral

end ScriptLexer
