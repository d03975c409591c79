import CardArchive.Failure
import CardArchive.Filter.Basic
import CardArchive.Statement.Basic

/-!
# Values of a category by mode

The value filters of a category are split by mode. Within a mode a value counts
once, at the place where it was first entered.

## What this module delivers

* `Partition`: the values required, forbidden and alternative.
* `partition`: the split of the filters of a category.
* `Partition.included`: the values that a row itself may hold.
* `Partition.wordConditions`: the tests of a column for words.
-/

set_option autoImplicit false

namespace CardArchive

/-- The values of a category by mode. -/
structure Partition where
  must : List String
  disallow : List String
  oneOf : List String
deriving DecidableEq

namespace Partition

/-- The values of one mode. -/
def byMode (p : Partition) : Mode → List String
  | .mustInclude => p.must
  | .disallow => p.disallow
  | .oneOf => p.oneOf

/-- The values that a row itself may hold. -/
def included (p : Partition) : List String := (p.must ++ p.oneOf).eraseDups

/-- Whether no mode has a value. -/
def isEmpty (p : Partition) : Bool := p.must.isEmpty && p.disallow.isEmpty && p.oneOf.isEmpty

end Partition

/-- The values entered with a mode, in order. -/
def valuesOf (m : Mode) : List Entry → List String
  | [] => []
  | .value v n :: es => if n = m then v :: valuesOf m es else valuesOf m es
  | .comparison _ _ _ :: es => valuesOf m es

/-- Whether a filter is a value. -/
def Entry.isValue : Entry → Bool
  | .value _ _ => true
  | .comparison _ _ _ => false

/-- The filters of a category by mode; each must be a value, and there must be
one. -/
def partition (es : List Entry) : Except StatementFault Partition :=
  if es.any fun e => !e.isValue then .error .expectedValue
  else
    let p : Partition :=
      ⟨(valuesOf .mustInclude es).eraseDups, (valuesOf .disallow es).eraseDups,
       (valuesOf .oneOf es).eraseDups⟩
    if p.isEmpty then .error .noValues else .ok p

/-- The test of a column for the words of one mode. -/
def wordCondition (c : Column) (m : Mode) (words : List String) : Expr :=
  match m with
  | .mustInclude => .allOf (words.map fun w => .like c w false)
  | .disallow => .allOf (words.map fun w => .like c w true)
  | .oneOf => .anyOf (words.map fun w => .like c w false)

/-- The tests of a column for words, one for each mode that has words. -/
def Partition.wordConditions (p : Partition) (c : Column) : List Expr :=
  Mode.all.filterMap fun m =>
    if (p.byMode m).isEmpty then none else some (wordCondition c m (p.byMode m))

@[simp]
theorem valuesOf_nil (m : Mode) : valuesOf m [] = [] := rfl

theorem valuesOf_append (m : Mode) (es fs : List Entry) :
    valuesOf m (es ++ fs) = valuesOf m es ++ valuesOf m fs := by
  induction es with
  | nil => rfl
  | cons e es ih =>
    cases e with
    | value v n => by_cases h : n = m <;> simp [valuesOf, h, ih]
    | comparison l o r => simp [valuesOf, ih]

end CardArchive
