import CardArchive.Failure
import CardArchive.Value.Basic

/-!
# Values as cells

A text column keeps texts as they are and writes out numbers. Integers have to
fit into a word of 64 bits; lists, objects and decimals can not be stored.

## What this module delivers

* `inWord` and `storedInteger`: the integers that can be stored.
* `storedText`: what a text column keeps of a value.
-/

set_option autoImplicit false

namespace CardArchive

/-- Whether an integer fits into a word of 64 bits. -/
def inWord (n : Int) : Bool := -9223372036854775808 ≤ n && n < 9223372036854775808

/-- The integer, if it can be stored. -/
def storedInteger (n : Int) : Except StorageFault Int :=
  if inWord n then .ok n else .error .outsideWord

/-- What a text column keeps of a value, nothing if it keeps none; `position` is the
place of the value in its row. -/
def storedText (position : Nat) : Value → Except StorageFault (Option String)
  | .null => .ok none
  | .bool b => .ok (some (if b then "1" else "0"))
  | .int n => (storedInteger n).map fun m => some (toString m)
  | .float x => .ok (Number.kept x)
  | .text s => .ok (some s)
  | v => .error (.unstorable position v.kind)

@[simp]
theorem storedText_text (position : Nat) (s : String) :
    storedText position (.text s) = .ok (some s) := rfl

@[simp]
theorem storedText_null (position : Nat) : storedText position .null = .ok none := rfl

/-- An integer is stored as it is or not at all. -/
theorem storedInteger_eq_ok {n m : Int} : storedInteger n = .ok m ↔ inWord n = true ∧ n = m := by
  unfold storedInteger
  split <;> simp_all

end CardArchive
