import CardArchive.Card.ManaCost
import CardArchive.Store.Binding
import CardArchive.Store.Tables
import CardArchive.Text.Parts
import CardArchive.Text.UpperCase

/-!
# Taking in a set

A set arrives as one value: its name, code, date and cards. Every card adds its
own row with its details, unless a card of that name is known already, and a
printing, unless the printing is known. When all cards are in, the groups of
faces that they name are recorded, each as soon as every face is known.

## What this module delivers

* `CardData`: what is read from the value of a card.
* `Tables.addCardData`: the tables with a card and its printing.
* `Tables.addFaces`: the tables with a group of faces.
* `Tables.addSet`: the tables with a set, and the number of new printings.
-/

set_option autoImplicit false

namespace CardArchive

/-! ## Reading the value of a card -/

namespace CardData

/-- The name that a card is stored under: that of its face if it has one. -/
def name (card : Value) : Except ShapeFault Value := do
  let face ← card.memberOf "faceName"
  if face.truthy then pure face else card.item "name"

/-- What stands between the names of faces. -/
def faceDivider : String := " // "

/-- The names of all faces of a card, if it has several. -/
def faces? (card : Value) : Except ShapeFault (Option (List Value)) := do
  let names ← card.memberOf "names"
  if names.truthy then
    let listed ← names.elements
    pure (some listed)
  else
    let whole ← card.memberOr "name" (.text "")
    if ← whole.holds faceDivider then
      let s ← whole.textFor "split"
      pure (some ((Text.partsBetween faceDivider s).map Value.text))
    else pure none

/-- The fields that can give the cost of a card as a number, best one first. -/
def costFields : List String :=
  ["faceConvertedManaCost", "faceManaValue", "convertedManaCost", "manaValue"]

/-- The number in the first of the fields that is given, zero without any. -/
def cost (card : Value) : List String → Except ShapeFault Int
  | [] => .ok 0
  | f :: fs => do
    let v ← card.memberOf f
    if v.isNull then cost card fs else v.toInteger

/-- A field of a card, the empty text if it is not given. -/
def textField (card : Value) (field : String) : Except ShapeFault Value := do
  let v ← card.memberOf field
  pure (v.orElse (.text ""))

/-- The labels in a field of a card, the fallback ones if there are none. -/
def labels (card : Value) (field : String) (fallback : List Value) :
    Except ShapeFault (List Value) := do
  let v ← card.memberOf field
  if v.truthy then v.elements else pure fallback

/-- The integer that a printed statistic starts with. -/
def statistic : Value → Except ShapeFault Int
  | .text s =>
    if Text.leadsReadably s.toList then .ok (Text.leadingInteger s.toList)
    else .error (.manyDigits (Text.digitCount s.toList))
  | v => .error (.notText v.kind)

/-- The amounts of mana in a cost. -/
def amounts : Value → Except ShapeFault Counts
  | .text s => parseManaCost s
  | v => .error (.notText v.kind)

end CardData

namespace Tables

/-! ## Details of a new card -/

/-- The label of a card without colors. -/
def colorless : Value := .text "C"

/-- The tables with some labels of a card. -/
def addLabels (t : Tables) (s : Side) (card : Option String) :
    List Value → Except StorageFault Tables
  | [] => .ok t
  | v :: vs => do
    let label ← storedText 2 v
    let t ← t.addLabel s card label
    addLabels t s card vs

/-- The tables with the labels in a field of a card. -/
def addLabelField (t : Tables) (s : Side) (name : Option String) (card : Value) (field : String)
    (fallback : List Value) : Except Failure Tables := do
  let labels ← shaped (CardData.labels card field fallback)
  stored (t.addLabels s name labels)

/-- The tables with the amounts of mana of a card. -/
def addAmounts (t : Tables) (card : Option String) : Counts → Except StorageFault Tables
  | [] => .ok t
  | (symbol, n) :: rest => do
    let quantity ← storedInteger n
    let t ← t.addMana card symbol quantity
    addAmounts t card rest

/-- The tables with power and toughness of a card. -/
def addPowerField (t : Tables) (name : Option String) (power toughness : Value) :
    Except Failure Tables := do
  let powerValue ← shaped (CardData.statistic power)
  let toughnessValue ← shaped (CardData.statistic toughness)
  let powerValue ← stored (storedInteger powerValue)
  let toughnessValue ← stored (storedInteger toughnessValue)
  stored (t.addPower ⟨name, power.shown, powerValue, toughness.shown, toughnessValue⟩)

/-- The tables with the loyalty of a card. -/
def addLoyaltyField (t : Tables) (name : Option String) (loyalty : Value) :
    Except Failure Tables := do
  let value ← shaped (CardData.statistic (.text loyalty.shown))
  let value ← stored (storedInteger value)
  stored (t.addLoyalty ⟨name, loyalty.shown, value⟩)

/-- The tables with the statistics of a card: power and toughness if it has both,
else loyalty if it has one. -/
def addStatistics (t : Tables) (name : Option String) (card : Value) : Except Failure Tables := do
  let power ← shaped (card.memberOf "power")
  let toughness ← shaped (card.memberOf "toughness")
  let loyalty ← shaped (card.memberOf "loyalty")
  if !power.isNull && !toughness.isNull then t.addPowerField name power toughness
  else if !loyalty.isNull then t.addLoyaltyField name loyalty
  else pure t

/-- The tables with all that is stored of a card beside its own row. -/
def addDetails (t : Tables) (name : Option String) (card : Value) : Except Failure Tables := do
  -- only the colors have a label for a card without any
  let t ← t.addLabelField .color name card "colors" [colorless]
  let t ← t.addLabelField .colorIdentity name card "colorIdentity" [colorless]
  let t ← t.addLabelField .supertype name card "supertypes" []
  let t ← t.addLabelField .type name card "types" []
  let t ← t.addLabelField .subtype name card "subtypes" []
  -- the labels are stored before the mana cost is read
  let manaCost ← shaped (CardData.textField card "manaCost")
  let amounts ← shaped (CardData.amounts manaCost)
  let t ← stored (t.addAmounts name amounts)
  t.addStatistics name card

/-! ## Cards and printings -/

/-- The tables with the row of a card, and with its details if the row is new. -/
def addCardRow (t : Tables) (name : Value) (card : Value) : Except Failure Tables := do
  -- every field is read before a cell is made, so a fault of shape comes first
  let text ← shaped (CardData.textField card "text")
  let cmc ← shaped (CardData.cost card CardData.costFields)
  let manaCost ← shaped (CardData.textField card "manaCost")
  let storedName ← stored (storedText 1 name)
  let text ← stored (storedText 2 text)
  let cmc ← stored (storedInteger cmc)
  let manaCost ← stored (storedText 4 manaCost)
  -- a known card keeps its details, and the new value's are not even read
  let (t, isNew) ← stored (t.addCard storedName text cmc manaCost)
  if isNew then t.addDetails storedName card else pure t

/-- The tables with a printing of a card, and whether it is new. -/
def addPrintingRow (t : Tables) (expansion name card : Value) : Except Failure (Tables × Bool) := do
  let number ← shaped (card.memberOf "number")
  -- any false value counts as no number, the integer zero too, but the text of one does not
  let number := (number.orElse (.text "")).shown
  let rarity ← shaped (card.memberOf "rarity")
  if number.isEmpty || !rarity.truthy then
    throw (.ingest (.unnumbered name.shown expansion.shown))
  let flavor ← shaped (CardData.textField card "flavorText")
  let artist ← shaped (CardData.textField card "artist")
  let name ← stored (storedText 1 name)
  let expansion ← stored (storedText 2 expansion)
  let rarity ← stored (storedText 4 rarity)
  let flavor ← stored (storedText 5 flavor)
  let artist ← stored (storedText 6 artist)
  stored (t.addPrinting name expansion (some number) rarity flavor artist)

/-- The tables with a card and its printing, and whether the printing is new. -/
def addCardData (t : Tables) (expansion card : Value) : Except Failure (Tables × Bool) := do
  let name ← shaped (CardData.name card)
  let t ← t.addCardRow name card
  t.addPrintingRow expansion name card

/-! ## Groups of faces -/

/-- The texts that some values are stored as. -/
def storedNames (position : Nat) : List Value → Except StorageFault (List (Option String))
  | [] => .ok []
  | v :: vs => do
    let first ← storedText position v
    let rest ← storedNames (position + 1) vs
    pure (first :: rest)

/-- The stored cards among some names. -/
def faceRows (t : Tables) (names : List (Option String)) : List CardRow :=
  t.cards.filter fun c => c.name.isSome && names.contains c.name

/-- The cost of some cards together. -/
def totalCmc (rows : List CardRow) : Int := rows.foldr (fun c total => c.cmc + total) 0

/-- Whether the costs of some cards can be added one by one to a total without a sum that
leaves the word. -/
def sumsFit (total : Int) : List CardRow → Bool
  | [] => true
  | c :: cs => inWord (total + c.cmc) && sumsFit (total + c.cmc) cs

/-- Cards in the order of their names, with one more. -/
def insertByName (row : CardRow) : List CardRow → List CardRow
  | [] => [row]
  | c :: cs =>
    if Text.atMost (row.name.getD "") (c.name.getD "") then row :: c :: cs
    else c :: insertByName row cs

/-- The cards in the order in which their costs are added, which is that of their names. -/
def inNameOrder (rows : List CardRow) : List CardRow := rows.foldr insertByName []

/-- The tables with a group of two or three faces under a layout. -/
def addGroup (t : Tables) (names : List (Option String)) (layout : Option String) (total : Int) :
    Except StorageFault Tables :=
  match names with
  | [a, b] => t.addPair a b layout total
  | [a, b, c] => t.addTriple a b c layout total
  | _ => .ok t

/-- The tables with the group of faces of a card. A group that lacks a face is left
out. -/
def addFaces (t : Tables) (card : Value) (names : List Value) : Except Failure Tables := do
  let layout ← shaped (card.memberOf "layout")
  let name ← shaped (CardData.name card)
  if !layout.truthy then throw (.ingest (.noLayout name.shown))
  if names.length ≠ 2 ∧ names.length ≠ 3 then
    throw (.ingest (.faceCount name.shown names.length))
  let storedFaces ← stored (storedNames 1 names)
  let rows := t.faceRows storedFaces
  -- the sum is taken of the faces that are there, also of an incomplete group
  if !sumsFit 0 (inNameOrder rows) then throw (.storage .largeSum)
  if rows.length ≠ names.length then pure t
  else
    let layout ← stored (storedText (names.length + 1) layout)
    stored (t.addGroup storedFaces layout (totalCmc rows))

/-- The tables with the groups of faces of some cards. -/
def addAllFaces (t : Tables) : List (Value × List Value) → Except Failure Tables
  | [] => .ok t
  | (card, names) :: rest => do
    let t ← t.addFaces card names
    addAllFaces t rest

/-! ## Sets -/

/-- What taking in some cards comes to: the tables, the number of new printings, and
the cards with several faces. -/
structure Intake where
  tables : Tables
  added : Nat
  faces : List (Value × List Value)

/-- The cards of a set, one after the other. -/
def addCards (t : Tables) (expansion : Value) : List Value → Except Failure Intake
  | [] => .ok ⟨t, 0, []⟩
  | card :: rest => do
    let (t, isNew) ← t.addCardData expansion card
    let faces ← shaped (CardData.faces? card)
    let later ← addCards t expansion rest
    pure ⟨later.tables, (if isNew then 1 else 0) + later.added,
      (faces.map fun names => (card, names)).toList ++ later.faces⟩

/-- The number of cards that a set claims to have. -/
def claimedSize (set : Value) : Except ShapeFault Int := do
  let total ← set.memberOf "totalSetSize"
  let base ← set.memberOf "baseSetSize"
  (total.orElse (base.orElse (.int 0))).toInteger

/-- The tables with the row of a set and its block. -/
def addSetRow (t : Tables) (name set : Value) : Except Failure Tables := do
  let code ← shaped (set.item "code")
  let code ← shaped (code.textFor "upper")
  let size ← shaped (claimedSize set)
  let released ← shaped (set.item "releaseDate")
  let storedName ← stored (storedText 1 name)
  let size ← stored (storedInteger size)
  let released ← stored (storedText 4 released)
  let t ← stored (t.addExpansion storedName (some (Text.upper code)) size released)
  -- a set without a block has no row in that table
  let block ← shaped (set.memberOf "block")
  if !block.truthy then pure t
  else
    let block ← stored (storedText 2 block)
    stored (t.addBlock storedName block)

/-- The tables with a set of the given name and all its cards, and the number of new
printings. -/
def addSet (t : Tables) (name set : Value) : Except Failure (Tables × Nat) := do
  let t ← t.addSetRow name set
  let cards ← shaped (set.item "cards")
  let cards ← shaped cards.elements
  let intake ← t.addCards name cards
  -- the faces come last, when every card that a group can name is stored
  let t ← intake.tables.addAllFaces intake.faces
  pure (t, intake.added)

end Tables

/-- The fields that a set must have. -/
def requiredSetFields : List String := ["code", "name", "cards", "releaseDate"]

/-- Refuses a value that lacks one of the fields. -/
def checkFields (set : Value) : List String → Except Failure Unit
  | [] => .ok ()
  | f :: fs => do
    if !(← shaped (set.holds f)) then throw (.ingest (.missingField f))
    checkFields set fs

/-- The name of a set that has all required fields. -/
def setName (set : Value) : Except Failure Value := do
  checkFields set requiredSetFields
  shaped (set.item "name")

@[simp]
theorem Tables.addLabels_nil (t : Tables) (s : Side) (card : Option String) :
    t.addLabels s card [] = .ok t := rfl

@[simp]
theorem Tables.addAmounts_nil (t : Tables) (card : Option String) :
    t.addAmounts card [] = .ok t := rfl

@[simp]
theorem Tables.addCards_nil (t : Tables) (expansion : Value) :
    t.addCards expansion [] = .ok ⟨t, 0, []⟩ := rfl

@[simp]
theorem Tables.addAllFaces_nil (t : Tables) : t.addAllFaces [] = .ok t := rfl

end CardArchive
