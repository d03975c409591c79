import CardArchive.Number.Decimal

/-!
# Shortest decimals

A floating point number is shown with the fewest digits that still read back as
the same number, and among those with the ones nearest to it. On the grid of each
number of digits only the two neighbours of the value can be nearest, so these
are tried, from one digit up to seventeen.

## What this module delivers

* `leadingDecimal`: the power of ten of a fraction's first digit.
* `neighbours`: the points of a decimal grid next to a fraction, nearest first.
* `shortest`: the digits of a positive floating point number.
* `rounded`: the digits of a fraction at a fixed number of places.
-/

set_option autoImplicit false

namespace CardArchive.Number

/-- The number `digits · 10 ^ exponent`. -/
structure Digits where
  digits : Nat
  exponent : Int
deriving DecidableEq

/-- The number as a fraction. -/
def Digits.fraction (d : Digits) : Nat × Nat :=
  (d.digits * Nat.pow 10 d.exponent.toNat, Nat.pow 10 (-d.exponent).toNat)

/-- The same number without zeros at its end; `fuel` bounds their count. -/
def Digits.strip : Nat → Digits → Digits
  | 0, d => d
  | fuel + 1, d =>
    if d.digits ≠ 0 ∧ d.digits % 10 = 0 then Digits.strip fuel ⟨d.digits / 10, d.exponent + 1⟩
    else d

/-- Whether `10 ^ k ≤ num / den`. -/
def reaches (num den : Nat) (k : Int) : Bool :=
  Nat.pow 10 k.toNat * den ≤ num * Nat.pow 10 (-k).toNat

/-- The power of ten of the first digit of a positive fraction, estimated from
the binary orders and corrected by comparison. -/
def leadingDecimal (num den : Nat) : Int :=
  let guess := ((num.log2 : Int) - (den.log2 : Int)) * 30103 / 100000
  if reaches num den (guess + 1) then guess + 1
  else if reaches num den guess then guess
  else guess - 1

/-- The whole numbers next to `num / den`, the nearer one first and of two equally
near ones the even one first. -/
def neighbours (num den : Nat) : List Nat :=
  let low := num / den
  let rest := num % den
  if rest = 0 then [low]
  else if roundDiv num den = low then [low, low + 1] else [low + 1, low]

/-- The fraction in units of `10 ^ place`. -/
def inUnits (num den : Nat) (place : Int) : Nat × Nat :=
  (num * Nat.pow 10 (-place).toNat, den * Nat.pow 10 place.toNat)

/-- The nearest number of `count` digits that reads back as the floating point
number with the given bits. -/
def readingBack? (bits num den count : Nat) : Option Digits :=
  let place := leadingDecimal num den + 1 - count
  let scaled := inUnits num den place
  ((neighbours scaled.1 scaled.2).map fun n => Digits.mk n place).find? fun d =>
    nearestBits d.fraction.1 d.fraction.2 == bits

/-- The fewest digits that read back as the floating point number `num / den`. -/
def shortest (num den : Nat) : Digits :=
  -- seventeen digits always read back
  let bits := nearestBits num den
  let found := (List.range 17).findSome? fun n => readingBack? bits num den (n + 1)
  Digits.strip 20 (found.getD ⟨num, 0⟩)

/-- The fraction rounded to `count` digits, without zeros at the end. -/
def rounded (count num den : Nat) : Digits :=
  let place := leadingDecimal num den + 1 - count
  let scaled := inUnits num den place
  Digits.strip (count + 1) ⟨roundDiv scaled.1 scaled.2, place⟩

end CardArchive.Number
