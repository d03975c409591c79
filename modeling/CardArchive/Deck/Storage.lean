import CardArchive.Deck.Basic
import CardArchive.Store.Details
import CardArchive.Timestamp.Reader

/-!
# Decks in the tables

A deck is spread over five tables: its own row, a row for each instance, and for
each instance rows for its categories, for the cards in them, and for its
quantities. Reading a deck back checks it as if it were new.

## What this module delivers

* `Tables.addInstance` and `Tables.addDeck`: the tables with an instance or a deck.
* `Tables.deck`: a deck with its history.
* `Tables.deckNames`: the stored decks.
* `Tables.withoutDeck`, `Tables.mapDeck`: the tables after a deck is removed or
  changed.
-/

set_option autoImplicit false

namespace CardArchive

/-- The text that the number of a printing is stored as. -/
def storedNumber : PrintingNumber → Except StorageFault String
  | .text s => .ok s
  | .integer n => (storedInteger n).map toString

namespace Tables

/-! ## Writing -/

/-- Whether a deck is stored. -/
def hasDeck (t : Tables) (id : Int) : Bool := t.decks.any fun d => d.id == id

/-- Whether a deck has an instance of a moment. -/
def hasInstance (t : Tables) (id : Int) (creation : String) : Bool :=
  t.instances.any fun i => i.deck == id && i.creation == creation

/-- Refuses printings that are not stored. -/
def checkPrintings (t : Tables) : List (Printing × Int) → Except Failure Unit
  | [] => .ok ()
  | (p, _) :: rest => do
    let number ← stored (storedNumber p.number)
    if !t.hasPrinting p.card p.set number then
      throw (.deck (.unknownPrinting p.card p.set p.number.shown))
    checkPrintings t rest

/-- The rows of the cards of an instance by category. -/
def memberRows (id : Int) (creation : String) (categories : List (String × List String)) :
    List MemberRow :=
  categories.flatMap fun c => (Text.sorted c.2).map fun card => ⟨id, creation, card, c.1⟩

/-- The columns that identify a quantity. -/
def quantityKey : List String := ["deck_id", "creation", "card_name", "expansion", "number"]

/-- Whether two quantities are of the same printing in the same instance. -/
def sameQuantity (a b : QuantityRow) : Bool :=
  a.deck == b.deck && a.creation == b.creation && a.card == b.card &&
    a.expansion == b.expansion && a.number == b.number

/-- The rows with the quantities of an instance. -/
def addQuantities (id : Int) (creation : String) (rows : List QuantityRow) :
    List (Printing × Int) → Except StorageFault (List QuantityRow)
  | [] => .ok rows
  | (p, n) :: rest => do
    let number ← storedNumber p.number
    let quantity ← storedInteger n
    let row : QuantityRow := ⟨id, creation, p.card, p.set, number, quantity⟩
    if rows.any (sameQuantity row) then throw (.duplicateKey "DeckInstanceCard" quantityKey)
    addQuantities id creation (rows ++ [row]) rest

/-- The tables with an instance of a deck. -/
def addInstance (t : Tables) (id : Int) (i : DeckInstance) : Except Failure Tables := do
  let creation := i.creation.text
  if t.hasInstance id creation then throw (.deck (.creationTaken (toString id) creation))
  -- all printings are checked before the first row is added
  t.checkPrintings i.quantities
  let quantities ← stored (addQuantities id creation t.quantities i.quantities)
  pure { t with
    instances := t.instances ++ [⟨id, creation⟩]
    categories := t.categories ++ i.categories.map fun c => ⟨id, creation, c.1⟩
    members := t.members ++ memberRows id creation i.categories
    quantities := quantities }

/-- The tables with several instances of a deck. -/
def addInstances (t : Tables) (id : Int) : List DeckInstance → Except Failure Tables
  | [] => .ok t
  | i :: rest => do
    let t ← t.addInstance id i
    addInstances t id rest

/-- The positive numbers up to one more than the number of decks; they can not all be
in use. -/
def candidateIds (t : Tables) : List Int :=
  (List.range (t.decks.length + 1)).map fun (n : Nat) => (n : Int) + 1

/-- A deck id that is not in use: one more than the largest, or the least positive one
if the largest can not be exceeded. -/
def freeId (t : Tables) : Int :=
  match (t.decks.map DeckRow.id).max? with
  | none => 1
  | some n =>
    if inWord (n + 1) then n + 1
    else ((t.candidateIds.find? fun id => !t.hasDeck id).getD (n + 1))

/-- The id for a new deck: the one asked for if it is free. -/
def newId (t : Tables) : Option Int → Except Failure Int
  | none => stored (storedInteger t.freeId)
  | some id => do
    let id ← stored (storedInteger id)
    if t.hasDeck id then throw (.deck (.idTaken id))
    pure id

/-- A text that a column of a deck must have. -/
def required (column : String) : Option String → Except Failure String
  | some s => .ok s
  | none => .error (.storage (.missingValue "Deck" column))

/-- The tables with a deck, and its id. -/
def addDeck (t : Tables) (d : Deck) : Except Failure (Tables × Int) := do
  let id ← t.newId d.deckId
  let name ← stored (storedText 2 d.name)
  let description ← stored (storedText 3 d.description)
  let name ← required "name" name
  let description ← required "description" description
  -- the deck's own row is there before its instances refer to it
  let t ← addInstances { t with decks := t.decks ++ [⟨id, name, description⟩] } id d.history
  pure (t, id)

/-- The tables without a deck and all that belongs to it. -/
def withoutDeck (t : Tables) (id : Int) : Tables :=
  { t with
    decks := t.decks.filter fun r => r.id != id
    instances := t.instances.filter fun r => r.deck != id
    categories := t.categories.filter fun r => r.deck != id
    quantities := t.quantities.filter fun r => r.deck != id
    members := t.members.filter fun r => r.deck != id }

/-- The tables with the row of a deck changed. -/
def mapDeck (t : Tables) (id : Int) (change : DeckRow → DeckRow) : Tables :=
  { t with decks := t.decks.map fun r => if r.id = id then change r else r }

/-! ## Reading -/

/-- The cards of a category of an instance. -/
def membersOf (t : Tables) (id : Int) (creation category : String) : List String :=
  (t.members.filter fun r =>
    r.deck == id && r.creation == creation && r.category == category).map MemberRow.card

/-- The categories of an instance with their cards. -/
def categoriesOf (t : Tables) (id : Int) (creation : String) : List (String × List String) :=
  (t.categories.filter fun r => r.deck == id && r.creation == creation).map fun r =>
    (r.category, t.membersOf id creation r.category)

/-- The quantities of an instance. -/
def quantitiesOf (t : Tables) (id : Int) (creation : String) : List (Printing × Value) :=
  (t.quantities.filter fun r => r.deck == id && r.creation == creation).map fun r =>
    (⟨r.card, r.expansion, .text r.number⟩, .int r.quantity)

/-- The instance of a deck that was made at a moment. -/
def deckInstance (t : Tables) (id : Int) (creation : String) : Except Failure DeckInstance :=
  match Timestamp.ofText? creation with
  | none => .error (.reading (.badTimestamp (Text.quoted creation)))
  | some moment =>
    (DeckInstance.ofParts (some id) (some moment) (t.categoriesOf id creation)
      (t.quantitiesOf id creation)).mapError Failure.deck

/-- Instances of a deck, one for each moment. -/
def deckInstances (t : Tables) (id : Int) : List String → Except Failure (List DeckInstance)
  | [] => .ok []
  | creation :: rest => do
    let first ← t.deckInstance id creation
    let others ← deckInstances t id rest
    pure (first :: others)

/-- The moments of a deck's instances, in the order of their texts. -/
def creations (t : Tables) (id : Int) : List String :=
  Text.sorted ((t.instances.filter fun r => r.deck == id).map InstanceRow.creation)

/-- A deck with its history. -/
def deck (t : Tables) (id : Int) : Except Failure Deck := do
  let id ← stored (storedInteger id)
  match t.decks.find? fun d => d.id == id with
  | none => throw (.deck (.unknownDeck (toString id)))
  | some row =>
    let history ← t.deckInstances id (t.creations id)
    Deck.ofParts (some id) (.text row.name) (.text row.description) history

/-- The ids and names of the stored decks, by id. -/
def deckNames (t : Tables) : List (Int × String) :=
  (t.decks.map fun r => (r.id, r.name)).mergeSort fun a b => decide (a.1 ≤ b.1)

@[simp]
theorem addInstances_nil (t : Tables) (id : Int) : t.addInstances id [] = .ok t := rfl

/-- A removed deck is gone. -/
@[simp]
theorem hasDeck_withoutDeck (t : Tables) (id : Int) : (t.withoutDeck id).hasDeck id = false := by
  simp [withoutDeck, hasDeck]

end Tables

end CardArchive
