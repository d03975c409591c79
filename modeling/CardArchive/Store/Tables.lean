import CardArchive.Failure
import CardArchive.Store.Rows
import CardArchive.Text.Order

/-!
# Tables

All rows of the archive. A row that would repeat a key, or that lacks a value it
must have, is skipped; a row that names a card or a set which is not there is
refused.

## What this module delivers

* `Tables` and `Tables.empty`: the rows of every table.
* `Side`: the five tables of labels, with `Tables.side` and `Tables.setSide`.
* `insertOrSkip`: one insertion.
* `Tables.addCard` and its siblings: one insertion for each table of cards.
* `Tables.listing`, `Tables.relations`, `Tables.dump`: the tables by name.
-/

set_option autoImplicit false

namespace CardArchive

/-- The rows of every table. -/
structure Tables where
  cards : List CardRow
  colors : List LabelRow
  colorIdentities : List LabelRow
  supertypes : List LabelRow
  types : List LabelRow
  subtypes : List LabelRow
  mana : List ManaRow
  powers : List PowerRow
  loyalties : List LoyaltyRow
  expansions : List ExpansionRow
  blocks : List BlockRow
  printings : List PrintingRow
  pairs : List PairRow
  triples : List TripleRow
  decks : List DeckRow
  instances : List InstanceRow
  categories : List DeckCategoryRow
  quantities : List QuantityRow
  members : List MemberRow
deriving DecidableEq

/-- A table of labels of cards. -/
inductive Side where
  | color
  | colorIdentity
  | supertype
  | type
  | subtype
deriving DecidableEq

/-- The outcome of an insertion: the rows, and whether there is a new one. A row
that could not be completed or whose key is taken is skipped. -/
def insertOrSkip {ρ : Type} (clash : ρ → ρ → Bool) (refers : ρ → Bool) (row : Option ρ)
    (rows : List ρ) : Except StorageFault (List ρ × Bool) :=
  match row with
  | none => .ok (rows, false)
  | some r =>
    if rows.any (clash r) then .ok (rows, false)
    else if refers r then .ok (rows ++ [r], true)
    else .error .brokenReference

/-- Whether two keys that may be missing clash. -/
def sameKey (a b : Option String) : Bool := a.isSome && a == b

namespace Tables

/-- No rows. -/
def empty : Tables := ⟨[], [], [], [], [], [], [], [], [], [], [], [], [], [], [], [], [], [], []⟩

/-- Whether a card is stored. -/
def hasCard (t : Tables) (name : String) : Bool := t.cards.any fun c => c.name == some name

/-- Whether a set is stored. -/
def hasExpansion (t : Tables) (name : String) : Bool :=
  t.expansions.any fun e => e.name == some name

/-- Whether a card that may be missing is stored; no card is no reference. -/
def refersToCard (t : Tables) (name : Option String) : Bool := name.all t.hasCard

/-- The rows of a table of labels. -/
def side (t : Tables) : Side → List LabelRow
  | .color => t.colors
  | .colorIdentity => t.colorIdentities
  | .supertype => t.supertypes
  | .type => t.types
  | .subtype => t.subtypes

/-- The tables with other rows in a table of labels. -/
def setSide (t : Tables) (s : Side) (rows : List LabelRow) : Tables :=
  match s with
  | .color => { t with colors := rows }
  | .colorIdentity => { t with colorIdentities := rows }
  | .supertype => { t with supertypes := rows }
  | .type => { t with types := rows }
  | .subtype => { t with subtypes := rows }

/-! ## Insertions -/

/-- The tables with a card, and whether it is new. -/
def addCard (t : Tables) (name text : Option String) (cmc : Int) (manaCost : Option String) :
    Except StorageFault (Tables × Bool) := do
  let row := do pure (CardRow.mk name (← text) cmc (← manaCost))
  let (rows, isNew) ← insertOrSkip (fun a b => sameKey a.name b.name) (fun _ => true) row t.cards
  pure ({ t with cards := rows }, isNew)

/-- The tables with a label of a card. -/
def addLabel (t : Tables) (s : Side) (card label : Option String) : Except StorageFault Tables := do
  let row := do pure (LabelRow.mk (← card) (← label))
  let (rows, _) ← insertOrSkip (fun a b => a == b) (fun r => t.hasCard r.card) row (t.side s)
  pure (t.setSide s rows)

/-- The tables with an amount of a mana symbol. -/
def addMana (t : Tables) (card : Option String) (symbol : String) (quantity : Int) :
    Except StorageFault Tables := do
  let row := do pure (ManaRow.mk (← card) symbol quantity)
  let (rows, _) ← insertOrSkip (fun a b => a.card == b.card && a.symbol == b.symbol)
    (fun r => t.hasCard r.card) row t.mana
  pure { t with mana := rows }

/-- The tables with power and toughness of a card. -/
def addPower (t : Tables) (row : PowerRow) : Except StorageFault Tables := do
  let (rows, _) ← insertOrSkip (fun a b => sameKey a.card b.card) (fun r => t.refersToCard r.card)
    (some row) t.powers
  pure { t with powers := rows }

/-- The tables with the loyalty of a card. -/
def addLoyalty (t : Tables) (row : LoyaltyRow) : Except StorageFault Tables := do
  let (rows, _) ← insertOrSkip (fun a b => sameKey a.card b.card) (fun r => t.refersToCard r.card)
    (some row) t.loyalties
  pure { t with loyalties := rows }

/-- The tables with a set. Neither its name nor its code may be taken. -/
def addExpansion (t : Tables) (name code : Option String) (size : Int) (released : Option String) :
    Except StorageFault Tables := do
  let row := do pure (ExpansionRow.mk name (← code) size (← released))
  let (rows, _) ← insertOrSkip (fun a b => sameKey a.name b.name || a.code == b.code)
    (fun _ => true) row t.expansions
  pure { t with expansions := rows }

/-- The tables with a block of a set. -/
def addBlock (t : Tables) (expansion block : Option String) : Except StorageFault Tables := do
  let row := do pure (BlockRow.mk (← expansion) (← block))
  let (rows, _) ← insertOrSkip (fun a b => a == b) (fun r => t.hasExpansion r.expansion) row t.blocks
  pure { t with blocks := rows }

/-- The tables with a printing, and whether it is new. -/
def addPrinting (t : Tables) (card expansion number rarity flavor artist : Option String) :
    Except StorageFault (Tables × Bool) := do
  let row := do
    pure (PrintingRow.mk (← card) (← expansion) (← number) (← rarity) (← flavor) (← artist))
  let (rows, isNew) ← insertOrSkip
    (fun a b => a.card == b.card && a.expansion == b.expansion && a.number == b.number)
    (fun r => t.hasCard r.card && t.hasExpansion r.expansion) row t.printings
  pure ({ t with printings := rows }, isNew)

/-- The tables with two faces of a card. -/
def addPair (t : Tables) (first second layout : Option String) (total : Int) :
    Except StorageFault Tables := do
  let row := do pure (PairRow.mk (← first) (← second) (← layout) total)
  let (rows, _) ← insertOrSkip (fun a b => a.first == b.first && a.second == b.second)
    (fun r => t.hasCard r.first && t.hasCard r.second) row t.pairs
  pure { t with pairs := rows }

/-- The tables with three faces of a card. -/
def addTriple (t : Tables) (first second third layout : Option String) (total : Int) :
    Except StorageFault Tables := do
  let row := do pure (TripleRow.mk (← first) (← second) (← third) (← layout) total)
  let (rows, _) ← insertOrSkip
    (fun a b => a.first == b.first && a.second == b.second && a.third == b.third)
    (fun r => t.hasCard r.first && t.hasCard r.second && t.hasCard r.third) row t.triples
  pure { t with triples := rows }

/-! ## Tables by name -/

/-- Every table with its name and its records. -/
def listing (t : Tables) : List (String × List Record) :=
  [("Card", t.cards.map CardRow.record), ("Color", t.colors.map (LabelRow.record "color")),
   ("ColorIdentity", t.colorIdentities.map (LabelRow.record "color")),
   ("Supertype", t.supertypes.map (LabelRow.record "type")),
   ("Type", t.types.map (LabelRow.record "type")),
   ("Subtype", t.subtypes.map (LabelRow.record "type")), ("Mana", t.mana.map ManaRow.record),
   ("PowerToughness", t.powers.map PowerRow.record),
   ("Loyalty", t.loyalties.map LoyaltyRow.record),
   ("Expansion", t.expansions.map ExpansionRow.record), ("Block", t.blocks.map BlockRow.record),
   ("CardExpansion", t.printings.map PrintingRow.record), ("TwoCards", t.pairs.map PairRow.record),
   ("ThreeCards", t.triples.map TripleRow.record), ("Deck", t.decks.map DeckRow.record),
   ("DeckInstance", t.instances.map InstanceRow.record),
   ("DeckInstanceCategory", t.categories.map DeckCategoryRow.record),
   ("DeckInstanceCard", t.quantities.map QuantityRow.record),
   ("DeckInstanceCardCategory", t.members.map MemberRow.record)]

/-- The names of the tables, in order. -/
def names : List String := Text.sorted (empty.listing.map Prod.fst)

/-- The records of the table with a name, none if there is no such table. -/
def recordsOf (listing : List (String × List Record)) (name : String) : List Record :=
  match listing.find? fun e => e.1 == name with
  | some e => e.2
  | none => []

/-- The tables as statements read them. -/
def relations (t : Tables) : Relations := recordsOf t.listing

/-- Order of two rows, cell by cell. -/
def rowAtMost : List Cell → List Cell → Bool
  | [], _ => true
  | _ :: _, [] => false
  | a :: as, b :: bs => if a = b then rowAtMost as bs else a.atMost b

/-- Every table that holds rows, with its rows in order. -/
def dump (t : Tables) : List (String × List (List Cell)) :=
  (t.listing.filter fun e => !e.2.isEmpty).map fun e =>
    (e.1, (e.2.map fun r => r.map Prod.snd).mergeSort rowAtMost)

end Tables

@[simp]
theorem insertOrSkip_none {ρ : Type} (clash : ρ → ρ → Bool) (refers : ρ → Bool) (rows : List ρ) :
    insertOrSkip clash refers none rows = .ok (rows, false) := rfl

/-- An insertion keeps every row and adds at most the given one. -/
theorem insertOrSkip_eq_ok {ρ : Type} {clash : ρ → ρ → Bool} {refers : ρ → Bool} {row : Option ρ}
    {rows result : List ρ} {isNew : Bool}
    (h : insertOrSkip clash refers row rows = .ok (result, isNew)) :
    (isNew = false ∧ result = rows) ∨
      (isNew = true ∧ ∃ r, row = some r ∧ refers r = true ∧ rows.any (clash r) = false ∧
        result = rows ++ [r]) := by
  unfold insertOrSkip at h
  split at h
  · simp_all
  · split at h
    · simp_all
    · split at h
      · rename_i r hc hr
        refine .inr ?_
        cases h
        exact ⟨rfl, r, rfl, hr, by simpa using hc, rfl⟩
      · simp at h

@[simp]
theorem Tables.side_setSide_self (t : Tables) (s : Side) (rows : List LabelRow) :
    (t.setSide s rows).side s = rows := by
  cases s <;> rfl

/-- Other rows in one table of labels leave the others as they were. -/
theorem Tables.side_setSide_ne {s other : Side} (h : other ≠ s) (t : Tables)
    (rows : List LabelRow) : (t.setSide s rows).side other = t.side other := by
  cases s <;> cases other <;> simp_all [side, setSide]

end CardArchive
