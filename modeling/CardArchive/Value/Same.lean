import CardArchive.Value.Basic

/-!
# Sameness of values

Two numbers are the same if they are equal as numbers, in whatever form they are
written; a truth value counts as zero or one. Two objects are the same if they
have the same fields in any order.

## What this module delivers

* `Magnitude`: the number that a value stands for.
* `Value.same`: sameness of two values.
-/

set_option autoImplicit false

namespace CardArchive

/-- The number that a value stands for: a fraction or an infinity. -/
inductive Magnitude where
  | fraction (num : Int) (den : Nat)
  | infinite (negative : Bool)
  | undefined
deriving DecidableEq

/-- Equality of numbers; what is no number differs from everything. -/
def Magnitude.equals : Magnitude → Magnitude → Bool
  | fraction n d, fraction m e => n * e == m * d
  | infinite a, infinite b => a == b
  | _, _ => false

namespace Value

/-- A whole number with a sign flag. -/
def signedNat (negative : Bool) (n : Nat) : Int := if negative then -Int.ofNat n else Int.ofNat n

/-- The number that a value stands for, if it is a number or a truth value. -/
def magnitude? : Value → Option Magnitude
  | bool b => some (.fraction (if b then 1 else 0) 1)
  | int n => some (.fraction n 1)
  | float x =>
    match Number.exact x with
    | .finite negative num den => some (.fraction (signedNat negative num) den)
    | .infinite negative => some (.infinite negative)
    | .undefined => some .undefined
  | decimal d => some (.fraction (signedNat d.negative d.fraction.1) d.fraction.2)
  | _ => none

/-- Sameness of two values that are neither lists nor objects. -/
def sameScalar (v w : Value) : Bool :=
  match v.magnitude?, w.magnitude? with
  | some m, some n => m.equals n
  | none, none =>
    match v, w with
    | null, null => true
    | text s, text t => s == t
    | _, _ => false
  | _, _ => false

mutual

/-- Sameness of two values. -/
def same : Value → Value → Bool
  | list xs, list ys => sameItems xs ys
  | object fs, object gs => fs.length == gs.length && sameFields fs gs
  | null, w => sameScalar null w
  | bool b, w => sameScalar (bool b) w
  | int n, w => sameScalar (int n) w
  | float x, w => sameScalar (float x) w
  | decimal d, w => sameScalar (decimal d) w
  | text s, w => sameScalar (text s) w
  | _, _ => false

/-- Sameness of two lists, item by item. -/
def sameItems : List Value → List Value → Bool
  | [], [] => true
  | x :: xs, y :: ys => same x y && sameItems xs ys
  | _, _ => false

/-- Whether each of the fields is found with the same value among the others. -/
def sameFields : List (String × Value) → List (String × Value) → Bool
  | [], _ => true
  | (k, v) :: rest, gs =>
    (match lookup k gs with
      | some w => same v w
      | none => false) && sameFields rest gs

end

end Value

end CardArchive
