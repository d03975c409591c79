import CardArchive.Search.Basic
import CardArchive.Statement.Limits
import CardArchive.Store.Binding
import CardArchive.Store.Tables

/-!
# Printings that a search selects

The statement of a search is answered over the tables, unless the database does not
take it. The selected printings can be listed page by page in a fixed order, grouped by
card and set, or counted.

## What this module delivers

* `PrintingKey`: what identifies a printing.
* `Tables.select`: the printings that a search selects by what its statement says.
* `Search.prepared` and `Tables.found`: the statement of a search if the database takes
  it, and the printings that it gives.
* `Tables.page`: a page of them, in order.
* `Tables.grouped`: their numbers by card and set.
* `Tables.count`: how many they are.
-/

set_option autoImplicit false

namespace CardArchive

/-- What identifies a printing: card, set and number. -/
structure PrintingKey where
  card : String
  expansion : String
  number : String
deriving DecidableEq

/-- The key of a printing. -/
def PrintingRow.key (r : PrintingRow) : PrintingKey := ⟨r.card, r.expansion, r.number⟩

/-- The key that a row of a statement gives. -/
def PrintingKey.ofCells : List Cell → PrintingKey
  | [card, expansion, number] => ⟨card.textOr, expansion.textOr, number.textOr⟩
  | _ => ⟨"", "", ""⟩

/-- The statement of a search that can be written. -/
def Search.written (s : Search) : Except Failure Select := do
  let statement ← s.statement?
  let _ ← statement.text?.mapError Failure.statement
  pure statement

/-- Order of printings: by card, then by set, then by number. -/
def PrintingRow.atMost (a b : PrintingRow) : Bool :=
  Text.listAtMost [a.card, a.expansion, a.number] [b.card, b.expansion, b.number]

/-- The part of a list that a page shows. A negative limit is none, and a negative
offset counts as zero. -/
def pageOf {α : Type} (limit offset : Int) (items : List α) : List α :=
  let rest := items.drop offset.toNat
  if limit < 0 then rest else rest.take limit.toNat

/-- The statement of a search, if it is printed and the database takes it within a frame. -/
def Search.prepared (s : Search) (f : Frame) : Except Failure Select := do
  let text ← s.printed?
  let statement ← s.statement?
  match f.refusal? statement text with
  | some r => throw (.refused r)
  | none => pure statement

namespace Tables

/-- The printings that a search selects by what its statement says, whether the database
takes the statement or not. -/
def select (t : Tables) (s : Search) : Except Failure (List PrintingKey) := do
  let statement ← s.written
  pure ((statement.rows t.relations Scope.empty).map PrintingKey.ofCells)

/-- The stored printings with some keys, in order. -/
def inOrder (t : Tables) (keys : List PrintingKey) : List PrintingRow :=
  (keys.flatMap fun k => t.printings.filter fun r => r.key == k).mergeSort PrintingRow.atMost

/-- The printings that the database gives for a statement that it has taken. -/
def answered (t : Tables) (statement : Select) : Except Failure (List PrintingKey) :=
  if statement.overruns t.relations Scope.empty then .error (.refused .longPattern)
  else .ok ((statement.rows t.relations Scope.empty).map PrintingKey.ofCells)

/-- The printings that the database gives for a search, whose statement is put in a
frame. -/
def found (t : Tables) (f : Frame) (s : Search) : Except Failure (List PrintingKey) := do
  let statement ← s.prepared f
  t.answered statement

/-- A page of the printings that a search selects. -/
def page (t : Tables) (s : Search) (limit offset : Int) : Except Failure (List PrintingRow) := do
  -- the statement is looked at before the numbers, and answered after them
  let statement ← s.prepared .listing
  let limit ← stored (storedInteger limit)
  let offset ← stored (storedInteger offset)
  let keys ← t.answered statement
  pure (pageOf limit offset (t.inOrder keys))

/-- Number of the printings that a search selects. -/
def count (t : Tables) (s : Search) : Except Failure Nat := do
  let keys ← t.found .counting s
  pure keys.length

end Tables

/-- The numbers of some printings by card and set, in order. -/
def numbersByCard (keys : List PrintingKey) : List (String × List (String × List String)) :=
  (keys.map PrintingKey.card).eraseDups.map fun card =>
    let own := keys.filter fun k => k.card == card
    (card, (own.map PrintingKey.expansion).eraseDups.map fun set =>
      (set, Text.sorted ((own.filter fun k => k.expansion == set).map PrintingKey.number).eraseDups))

/-- The numbers of the printings that a search selects, by card and set. -/
def Tables.grouped (t : Tables) (s : Search) :
    Except Failure (List (String × List (String × List String))) :=
  (t.found .alone s).map numbersByCard

@[simp]
theorem pageOf_natCast {α : Type} (limit offset : Nat) (items : List α) :
    pageOf limit offset items = (items.drop offset).take limit := by
  have h : ¬(limit : Int) < 0 := by omega
  simp [pageOf, h]

end CardArchive
