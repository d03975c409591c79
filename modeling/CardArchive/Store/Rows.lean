import CardArchive.Statement.Meaning

/-!
# Rows

What is known of a card is spread over several tables: its own row, one row for
each of its colors, types and mana symbols, its statistics, and one row for each
printing. Sets, blocks, groups of faces and decks have tables as well.

## What this module delivers

* One structure for the rows of each kind of table.
* `record` of each: its cells by column, as statements read them.
-/

set_option autoImplicit false

namespace CardArchive

/-- A card with its rules text and its cost. -/
structure CardRow where
  name : Option String
  text : String
  cmc : Int
  manaCost : String
deriving DecidableEq

/-- One value of a card that may have several: a color or a type. -/
structure LabelRow where
  card : String
  label : String
deriving DecidableEq

/-- The amount of one mana symbol in a card's cost. -/
structure ManaRow where
  card : String
  symbol : String
  quantity : Int
deriving DecidableEq

/-- Power and toughness of a card, as printed and as integers. -/
structure PowerRow where
  card : Option String
  power : String
  powerValue : Int
  toughness : String
  toughnessValue : Int
deriving DecidableEq

/-- Loyalty of a card, as printed and as an integer. -/
structure LoyaltyRow where
  card : Option String
  loyalty : String
  value : Int
deriving DecidableEq

/-- A set of printings. -/
structure ExpansionRow where
  name : Option String
  code : String
  size : Int
  released : String
deriving DecidableEq

/-- The block that a set belongs to. -/
structure BlockRow where
  expansion : String
  block : String
deriving DecidableEq

/-- A printing of a card in a set. -/
structure PrintingRow where
  card : String
  expansion : String
  number : String
  rarity : String
  flavor : String
  artist : String
deriving DecidableEq

/-- Two faces of one card. -/
structure PairRow where
  first : String
  second : String
  layout : String
  totalCmc : Int
deriving DecidableEq

/-- Three faces of one card. -/
structure TripleRow where
  first : String
  second : String
  third : String
  layout : String
  totalCmc : Int
deriving DecidableEq

/-- A deck. -/
structure DeckRow where
  id : Int
  name : String
  description : String
deriving DecidableEq

/-- An instance of a deck. -/
structure InstanceRow where
  deck : Int
  creation : String
deriving DecidableEq

/-- A category of an instance. -/
structure DeckCategoryRow where
  deck : Int
  creation : String
  category : String
deriving DecidableEq

/-- The copies of a printing in an instance. -/
structure QuantityRow where
  deck : Int
  creation : String
  card : String
  expansion : String
  number : String
  quantity : Int
deriving DecidableEq

/-- A card in a category of an instance. -/
structure MemberRow where
  deck : Int
  creation : String
  card : String
  category : String
deriving DecidableEq

/-- The cells of a card. -/
def CardRow.record (r : CardRow) : Record :=
  [("name", .ofText? r.name), ("text", .text r.text), ("cmc", .integer r.cmc),
   ("mana_cost", .text r.manaCost)]

/-- The cells of a label, in a table that names its column `column`. -/
def LabelRow.record (column : String) (r : LabelRow) : Record :=
  [("card_name", .text r.card), (column, .text r.label)]

/-- The cells of an amount of mana. -/
def ManaRow.record (r : ManaRow) : Record :=
  [("card_name", .text r.card), ("mana_type", .text r.symbol), ("quantity", .integer r.quantity)]

/-- The cells of power and toughness. -/
def PowerRow.record (r : PowerRow) : Record :=
  [("card_name", .ofText? r.card), ("power", .text r.power), ("power_value", .integer r.powerValue),
   ("toughness", .text r.toughness), ("toughness_value", .integer r.toughnessValue)]

/-- The cells of loyalty. -/
def LoyaltyRow.record (r : LoyaltyRow) : Record :=
  [("card_name", .ofText? r.card), ("loyalty", .text r.loyalty),
   ("loyalty_value", .integer r.value)]

/-- The cells of a set. -/
def ExpansionRow.record (r : ExpansionRow) : Record :=
  [("expansion", .ofText? r.name), ("abbrv", .text r.code), ("size", .integer r.size),
   ("release_date", .text r.released)]

/-- The cells of a block. -/
def BlockRow.record (r : BlockRow) : Record :=
  [("expansion", .text r.expansion), ("block", .text r.block)]

/-- The cells of a printing. -/
def PrintingRow.record (r : PrintingRow) : Record :=
  [("card_name", .text r.card), ("expansion", .text r.expansion), ("number", .text r.number),
   ("rarity", .text r.rarity), ("flavor_text", .text r.flavor), ("artist", .text r.artist)]

/-- The cells of a pair of faces. -/
def PairRow.record (r : PairRow) : Record :=
  [("card_a", .text r.first), ("card_b", .text r.second), ("type", .text r.layout),
   ("total_cmc", .integer r.totalCmc)]

/-- The cells of three faces. -/
def TripleRow.record (r : TripleRow) : Record :=
  [("card_a", .text r.first), ("card_b", .text r.second), ("card_c", .text r.third),
   ("type", .text r.layout), ("total_cmc", .integer r.totalCmc)]

/-- The cells of a deck. -/
def DeckRow.record (r : DeckRow) : Record :=
  [("id", .integer r.id), ("name", .text r.name), ("description", .text r.description)]

/-- The cells of an instance. -/
def InstanceRow.record (r : InstanceRow) : Record :=
  [("deck_id", .integer r.deck), ("creation", .text r.creation)]

/-- The cells of a category of an instance. -/
def DeckCategoryRow.record (r : DeckCategoryRow) : Record :=
  [("deck_id", .integer r.deck), ("creation", .text r.creation), ("category", .text r.category)]

/-- The cells of a quantity. -/
def QuantityRow.record (r : QuantityRow) : Record :=
  [("deck_id", .integer r.deck), ("creation", .text r.creation), ("card_name", .text r.card),
   ("expansion", .text r.expansion), ("number", .text r.number), ("quantity", .integer r.quantity)]

/-- The cells of a card in a category. -/
def MemberRow.record (r : MemberRow) : Record :=
  [("deck_id", .integer r.deck), ("creation", .text r.creation), ("card_name", .text r.card),
   ("category", .text r.category)]

end CardArchive
