import CardArchive.Number.Binary

/-!
# Decimal numbers

A number written with a point or an exponent is kept as it was written: a sign,
the digits as one whole number, and a power of ten.

## What this module delivers

* `Decimal`: the written number.
* `Decimal.toFloat`: the nearest floating point number.
* `Decimal.truncate`: the number without its fraction.
* `Decimal.text`: the plain form, or the form with an exponent for very small
  numbers and for those with a positive power of ten.
-/

set_option autoImplicit false

namespace CardArchive.Number

/-- The number `± coefficient · 10 ^ exponent`. -/
structure Decimal where
  negative : Bool
  coefficient : Nat
  exponent : Int
deriving DecidableEq

namespace Decimal

/-- Number of decimal digits of the coefficient. -/
def width (d : Decimal) : Nat := (Nat.repr d.coefficient).length

/-- Numerator and denominator of the magnitude. -/
def fraction (d : Decimal) : Nat × Nat :=
  (d.coefficient * Nat.pow 10 d.exponent.toNat, Nat.pow 10 (-d.exponent).toNat)

/-- The nearest floating point number. A leading digit far outside the range of
floating point numbers decides at once. -/
def toFloat (d : Decimal) : Float :=
  let leading := d.exponent + d.width
  if d.coefficient = 0 ∨ leading < -400 then (nearest? d.negative 0 1).getD 0
  else if 400 < leading then infinity d.negative
  else
    match nearest? d.negative d.fraction.1 d.fraction.2 with
    | some x => x
    | none => infinity d.negative

/-- The number without its fraction. -/
def truncate (d : Decimal) : Int :=
  let size := Int.ofNat (d.fraction.1 / d.fraction.2)
  if d.negative then -size else size

/-- The digits with a point after the first `places` of them; zeros fill up a
missing whole part. -/
def pointed (digits : List Char) (places : Int) : List Char :=
  if places ≤ 0 then
    '0' :: '.' :: List.replicate (-places).toNat '0' ++ digits
  else if digits.length ≤ places.toNat then
    digits ++ List.replicate (places.toNat - digits.length) '0'
  else digits.take places.toNat ++ '.' :: digits.drop places.toNat

/-- An exponent with its sign. -/
def signed (e : Int) : List Char :=
  (if e < 0 then '-' else '+') :: (Nat.repr e.natAbs).toList

/-- Written form of the number. -/
def text (d : Decimal) : String :=
  let digits := (Nat.repr d.coefficient).toList
  let leading := d.exponent + digits.length - 1
  let body :=
    if d.exponent ≤ 0 ∧ -6 ≤ leading then pointed digits (leading + 1)
    else pointed digits 1 ++ 'E' :: signed leading
  String.ofList (if d.negative then '-' :: body else body)

end Decimal

end CardArchive.Number
