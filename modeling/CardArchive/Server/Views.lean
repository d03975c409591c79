import CardArchive.Deck.Basic
import CardArchive.Store.Details
import CardArchive.Text.Order

/-!
# Answers as values

The forms in which cards, printings and decks are shown to callers.

## What this module delivers

* `PrintingRow.listed`: a printing on a page of a search.
* `CardDetails.toValue`: a card with its printings and groups of faces.
* `Deck.toValue`: a deck with its history.
-/

set_option autoImplicit false

namespace CardArchive

/-- Texts as a value. -/
def textList (xs : List String) : Value := .list (xs.map Value.text)

/-- A printing on a page of a search. -/
def PrintingRow.listed (r : PrintingRow) : Value :=
  .object [("card_name", .text r.card), ("set", .text r.expansion), ("number", .text r.number),
    ("rarity", .text r.rarity), ("artist", .text r.artist)]

/-- A printing of a card. -/
def PrintingRow.toValue (r : PrintingRow) : Value :=
  .object [("set", .text r.expansion), ("number", .text r.number), ("rarity", .text r.rarity),
    ("flavor_text", .text r.flavor), ("artist", .text r.artist)]

/-- A group of faces. -/
def FaceGroup.toValue (g : FaceGroup) : Value :=
  .object [("cards", textList g.cards), ("type", .text g.layout)]

/-- A text that may be missing. -/
def ofText? : Option String → Value
  | some s => .text s
  | none => .null

namespace CardDetails

/-- The printed statistics of a card. -/
def statistics (d : CardDetails) : Value :=
  .object ((match d.power with
    | some p => [("power", .text p.power), ("toughness", .text p.toughness)]
    | none => []) ++
    (match d.loyalty with
    | some l => [("loyalty", .text l.loyalty)]
    | none => []))

/-- A card with all that is known of it. -/
def toValue (d : CardDetails) : Value :=
  .object [("name", ofText? d.row.name), ("text", .text d.row.text), ("cmc", .int d.row.cmc),
    ("mana_cost", .text d.row.manaCost),
    ("mana", .object (d.mana.map fun m => (m.1, .int m.2))),
    ("colors", textList d.colors), ("color_identity", textList d.colorIdentity),
    ("supertypes", textList d.supertypes), ("types", textList d.types),
    ("subtypes", textList d.subtypes), ("stats", d.statistics),
    ("printings", .list (d.printings.map PrintingRow.toValue)),
    ("relationships", .list (d.groups.map FaceGroup.toValue))]

end CardDetails

/-! ## Decks -/

/-- Order of numbers of printings; integers come before texts. -/
def PrintingNumber.atMost : PrintingNumber → PrintingNumber → Bool
  | integer a, integer b => decide (a ≤ b)
  | integer _, text _ => true
  | text _, integer _ => false
  | text a, text b => Text.atMost a b

/-- Order of printings: by card, then by set, then by number. -/
def Printing.atMost (a b : Printing) : Bool :=
  if a.card = b.card then
    if a.set = b.set then a.number.atMost b.number else Text.atMost a.set b.set
  else Text.atMost a.card b.card

/-- The copies of a printing. -/
def Printing.withQuantity (p : Printing) (n : Int) : Value :=
  .object [("card_name", .text p.card), ("set", .text p.set), ("number", p.number.toValue),
    ("quantity", .int n)]

/-- One instance of a deck. The printings are listed in order, in which a deck that was read
holds them. -/
def DeckInstance.toValue (i : DeckInstance) : Value :=
  .object [("creation", .text i.creation.text),
    ("categories", .object (i.categories.map fun c => (c.1, textList (Text.sorted c.2)))),
    ("printings", .list ((i.quantities.mergeSort fun a b => a.1.atMost b.1).map fun q =>
      q.1.withQuantity q.2))]

/-- A deck with its history. -/
def Deck.toValue (d : Deck) : Value :=
  .object [("id", match d.deckId with
      | some id => .int id
      | none => .null),
    ("name", d.name), ("description", d.description),
    ("history", .list (d.history.map DeckInstance.toValue))]

end CardArchive
