/-!
# Binary numbers, exactly

A floating point number is an exact fraction, and every fraction has one nearest
floating point number. All other modules go through these two directions and
compute with whole numbers in between.

## What this module delivers

* `roundDiv`: a quotient rounded to the nearest whole number, a half to the even
  one.
* `Exact` and `exact`: the value of a floating point number as a fraction.
* `nearest?`: the floating point number nearest to a fraction, `none` when the
  fraction is too large.
-/

set_option autoImplicit false

namespace CardArchive.Number

/-- The quotient rounded to the nearest whole number, a half to the even one. -/
def roundDiv (num den : Nat) : Nat :=
  let low := num / den
  let rest := num % den
  if 2 * rest < den then low
  else if den < 2 * rest then low + 1
  else if low % 2 = 0 then low else low + 1

/-- Value of a floating point number. -/
inductive Exact where
  | finite (negative : Bool) (num den : Nat)
  | infinite (negative : Bool)
  | undefined
deriving DecidableEq

/-- The value of a floating point number as a fraction. -/
def exact (x : Float) : Exact :=
  let bits := x.toBits.toNat
  let negative := Nat.pow 2 63 ≤ bits
  let field := bits / Nat.pow 2 52 % Nat.pow 2 11
  let fraction := bits % Nat.pow 2 52
  if field = Nat.pow 2 11 - 1 then
    if fraction = 0 then .infinite negative else .undefined
  else if field = 0 then .finite negative fraction (Nat.pow 2 1074)
  else
    .finite negative ((Nat.pow 2 52 + fraction) * Nat.pow 2 (field - 1075))
      (Nat.pow 2 (1075 - field))

/-- Exponent of the leading binary digit of the positive fraction `num / den`. -/
def leadingBinary (num den : Nat) : Int :=
  let guess : Int := (num.log2 : Int) - (den.log2 : Int)
  if num * Nat.pow 2 (-guess).toNat < den * Nat.pow 2 guess.toNat then guess - 1 else guess

/-- Bits of the floating point number nearest to `num / den`. The last place is
fixed by the leading digit, but never below the smallest exponent; a carry into
the next binary order lands in the exponent field by itself. -/
def nearestBits (num den : Nat) : Nat :=
  if num = 0 then 0
  else
    let place : Int := max (leadingBinary num den - 52) (-1074)
    let count := roundDiv (num * Nat.pow 2 (-place).toNat) (den * Nat.pow 2 place.toNat)
    (place + 1074).toNat * Nat.pow 2 52 + count

/-- Bits of positive infinity. -/
def infinityBits : Nat := (Nat.pow 2 11 - 1) * Nat.pow 2 52

/-- The floating point number nearest to the fraction with the given sign, `none`
when it lies beyond the largest one. -/
def nearest? (negative : Bool) (num den : Nat) : Option Float :=
  let bits := nearestBits num den
  if bits < infinityBits then
    some (Float.ofBits (UInt64.ofNat (if negative then Nat.pow 2 63 + bits else bits)))
  else none

/-- Infinity with the given sign. -/
def infinity (negative : Bool) : Float :=
  Float.ofBits (UInt64.ofNat (if negative then Nat.pow 2 63 + infinityBits else infinityBits))

/-- The floating point number that is no number. -/
def undefinedFloat : Float := Float.ofBits (UInt64.ofNat (infinityBits + Nat.pow 2 51))

/-- The floating point number nearest to a whole number. -/
def ofInt? (n : Int) : Option Float := nearest? (n < 0) n.natAbs 1

@[simp]
theorem roundDiv_zero (den : Nat) : roundDiv 0 den = 0 := by
  simp [roundDiv]

@[simp]
theorem nearestBits_zero (den : Nat) : nearestBits 0 den = 0 := rfl

end CardArchive.Number
