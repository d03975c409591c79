import CardArchive.Filter.Basic

/-!
# Cells

A stored row holds cells: integers, texts, or nothing. What a test of cells says
can be unknown, as nothing can be compared with nothing.

## What this module delivers

* `Cell`: one stored value.
* `Truth`: what a test says, with `Truth.both`, `Truth.either` and `Truth.flip`.
* `Cell.order?` and `compared`: the comparison of two cells.
* `among`: whether a cell occurs among others.
* `fits`: whether a text fits a pattern with the wildcards `%` and `_`, and `holdsPart`:
  whether a cell has a part that does.
-/

set_option autoImplicit false

namespace CardArchive

/-- One stored value. -/
inductive Cell where
  | null
  | integer (n : Int)
  | text (s : String)
deriving DecidableEq, Inhabited

/-- What a test says; nothing if that is unknown. -/
abbrev Truth := Option Bool

namespace Truth

/-- A conjunction is false as soon as one side is. -/
def both : Truth → Truth → Truth
  | some false, _ => some false
  | _, some false => some false
  | some true, some true => some true
  | _, _ => none

/-- A disjunction is true as soon as one side is. -/
def either : Truth → Truth → Truth
  | some true, _ => some true
  | _, some true => some true
  | some false, some false => some false
  | _, _ => none

/-- The negation of a test if one is asked for. -/
def flip (negated : Bool) (t : Truth) : Truth := if negated then t.map not else t

/-- Conjunction of several tests. -/
def all (ts : List Truth) : Truth := ts.foldr both (some true)

/-- Disjunction of several tests. -/
def any (ts : List Truth) : Truth := ts.foldr either (some false)

end Truth

namespace Cell

/-- The cell of a text that may be missing. -/
def ofText? : Option String → Cell
  | some s => text s
  | none => null

/-- The text that a cell holds, the empty one if it holds none. -/
def textOr : Cell → String
  | text s => s
  | _ => ""

/-- What a cell says as a test: a number other than zero holds. -/
def truth : Cell → Truth
  | null => none
  | integer n => some (n != 0)
  | text _ => some false

/-- The cell of what a test says. -/
def ofTruth : Truth → Cell
  | none => null
  | some b => integer (if b then 1 else 0)

/-- Order of two cells that hold something; integers come before texts. -/
def order? : Cell → Cell → Option Ordering
  | integer a, integer b => some (compare a b)
  | text a, text b => some (compare a b)
  | integer _, text _ => some .lt
  | text _, integer _ => some .gt
  | _, _ => none

/-- Whether the first cell does not come after the second; nothing comes first. -/
def atMost : Cell → Cell → Bool
  | null, _ => true
  | _, null => false
  | a, b => (order? a b).all fun o => o != .gt

end Cell

/-- Comparison of two cells by an operator with the given text. -/
def compared (operator : String) (left right : Cell) : Truth :=
  match Operator.ofText? operator with
  | some o => (left.order? right).map o.holds
  | none => none

/-- Whether a cell occurs among some cells. If it does not, a missing one among
them leaves that unknown. -/
def among (c : Cell) (cells : List Cell) : Truth :=
  if cells.isEmpty then some false
  else if c = .null then none
  else if cells.contains c then some true
  else if cells.contains .null then none
  else some false

/-- A list and what is left of it after each of its items. -/
def suffixes {α : Type} : List α → List (List α)
  | [] => [[]]
  | x :: xs => (x :: xs) :: suffixes xs

/-- Whether a text fits a pattern: `%` stands for any text and `_` for any one
character. -/
def fits : List Char → List Char → Bool
  | [], cs => cs.isEmpty
  | p :: ps, cs =>
    if p = '%' then (suffixes cs).any (fits ps)
    else
      match cs with
      | [] => false
      | c :: rest => (p == '_' || p == c) && fits ps rest

/-- What a pattern is put to of a text: what stands before the first null character. -/
def beforeNull (cs : List Char) : List Char := cs.takeWhile fun c => c != '\x00'

/-- Whether the text of a cell has a part that fits a pattern. -/
def holdsPart (word : String) : Cell → Truth
  | .null => none
  | .integer n => some (fits ('%' :: word.toList ++ ['%']) (toString n).toList)
  | .text s => some (fits ('%' :: word.toList ++ ['%']) (beforeNull s.toList))

/-- Number of different cells that hold something. -/
def distinctCount (cells : List Cell) : Nat := (cells.filter (· ≠ .null)).eraseDups.length

@[simp]
theorem Cell.truth_ofTruth (t : Truth) : (Cell.ofTruth t).truth = t := by
  rcases t with _ | b
  · rfl
  · cases b <;> rfl

@[simp]
theorem Truth.all_nil : Truth.all [] = some true := rfl

@[simp]
theorem Truth.any_nil : Truth.any [] = some false := rfl

/-- A conjunction holds exactly if both sides do. -/
@[simp]
theorem Truth.both_eq_true (a b : Truth) :
    a.both b = some true ↔ a = some true ∧ b = some true := by
  rcases a with _ | a <;> rcases b with _ | b <;> (try cases a) <;> (try cases b) <;> simp [both]

/-- A disjunction holds exactly if one side does. -/
@[simp]
theorem Truth.either_eq_true (a b : Truth) :
    a.either b = some true ↔ a = some true ∨ b = some true := by
  rcases a with _ | a <;> rcases b with _ | b <;> (try cases a) <;> (try cases b) <;> simp [either]

/-- A conjunction of several tests holds exactly if all of them do. -/
theorem Truth.all_eq_true (ts : List Truth) :
    Truth.all ts = some true ↔ ∀ t ∈ ts, t = some true := by
  induction ts with
  | nil => simp
  | cons t ts ih => simpa [Truth.all] using fun _ => ih

/-- Every suffix is what is left after some beginning. -/
theorem mem_suffixes {α : Type} (xs ys : List α) : ys ∈ suffixes xs ↔ ys <:+ xs := by
  induction xs with
  | nil => simp [suffixes]
  | cons x xs ih => simp [suffixes, ih, List.suffix_cons_iff]

end CardArchive
