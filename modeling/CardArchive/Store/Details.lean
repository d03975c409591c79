import CardArchive.Store.Binding
import CardArchive.Store.Tables

/-!
# What is known of a card

Everything that is stored of one card, gathered from its tables.

## What this module delivers

* `FaceGroup` and `Tables.faceGroups`: the groups of faces that a card belongs to.
* `CardDetails` and `Tables.details?`: a card with all its rows.
* `Tables.hasPrinting`: whether a printing is stored.
-/

set_option autoImplicit false

namespace CardArchive

/-- The faces of one card. -/
structure FaceGroup where
  cards : List String
  layout : String
deriving DecidableEq

/-- A card with all that is stored of it. -/
structure CardDetails where
  row : CardRow
  mana : List (String × Int)
  colors : List String
  colorIdentity : List String
  supertypes : List String
  types : List String
  subtypes : List String
  power : Option PowerRow
  loyalty : Option LoyaltyRow
  printings : List PrintingRow
  groups : List FaceGroup

namespace Tables

/-- Every group of faces. -/
def allGroups (t : Tables) : List FaceGroup :=
  t.pairs.map (fun r => ⟨[r.first, r.second], r.layout⟩) ++
    t.triples.map fun r => ⟨[r.first, r.second, r.third], r.layout⟩

/-- The groups of faces that a card belongs to, those of two faces first, each in the order
in which they were recorded. -/
def faceGroups (t : Tables) (name : String) : List FaceGroup :=
  t.allGroups.filter fun g => g.cards.contains name

/-- The labels of a card in order. -/
def labelsOf (t : Tables) (s : Side) (name : String) : List String :=
  Text.sorted (((t.side s).filter fun r => r.card == name).map LabelRow.label)

/-- The amounts of mana in the cost of a card, by symbol. -/
def manaOf (t : Tables) (name : String) : List (String × Int) :=
  Text.sortedBy Prod.fst
    ((t.mana.filter fun r => r.card == name).map fun r => (r.symbol, r.quantity))

/-- The printings of a card, by set and number. -/
def printingsOf (t : Tables) (name : String) : List PrintingRow :=
  (t.printings.filter fun r => r.card == name).mergeSort fun a b =>
    Text.listAtMost [a.expansion, a.number] [b.expansion, b.number]

/-- The card with a name, and all that is stored of it. -/
def details? (t : Tables) (name : String) : Option CardDetails :=
  (t.cards.find? fun c => c.name == some name).map fun row =>
    { row
      mana := t.manaOf name
      colors := t.labelsOf .color name
      colorIdentity := t.labelsOf .colorIdentity name
      supertypes := t.labelsOf .supertype name
      types := t.labelsOf .type name
      subtypes := t.labelsOf .subtype name
      power := t.powers.find? fun r => r.card == some name
      loyalty := t.loyalties.find? fun r => r.card == some name
      printings := t.printingsOf name
      groups := t.faceGroups name }

/-- Whether a printing is stored. -/
def hasPrinting (t : Tables) (card expansion number : String) : Bool :=
  t.printings.any fun r => r.card == card && r.expansion == expansion && r.number == number

/-- Whether the printing that three values name is stored. -/
def findsPrinting (t : Tables) (card expansion number : Value) : Except StorageFault Bool := do
  let card ← storedText 1 card
  let expansion ← storedText 2 expansion
  let number ← storedText 3 number
  match card, expansion, number with
  | some c, some e, some n => pure (t.hasPrinting c e n)
  | _, _, _ => pure false

end Tables

end CardArchive
