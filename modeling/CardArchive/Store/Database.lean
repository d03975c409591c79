import CardArchive.Deck.Storage
import CardArchive.Store.Ingest

/-!
# The database

The tables are changed in transactions. Sets and instances are written in a
transaction of their own, which keeps all changes or none and can not be begun
inside another one. Changes of a single deck open a transaction as they go; if
one of their values can not be stored, that transaction stays open.

## What this module delivers

* `Database`: the tables, and whether a transaction is open.
* `Database.transact`: all changes of a piece of work, or none.
* `Database.insertSet`, `Database.insertSets`: taking in sets.
* `Database.addDeck`, `updateDeck`, `deleteDeck`, `renameDeck`, `describeDeck`: the
  changes of decks.
-/

set_option autoImplicit false

namespace CardArchive

/-- The tables, and whether a transaction is open. -/
structure Database where
  tables : Tables
  isOpen : Bool
deriving DecidableEq

namespace Database

/-- The database without rows. -/
def empty : Database := ⟨Tables.empty, false⟩

/-- The outcome of a piece of work in a transaction of its own: a failure leaves the
tables as they were. -/
def transact {α : Type} (db : Database) (work : Tables → Except Failure (Tables × α)) :
    Database × Except Failure α :=
  if db.isOpen then (db, .error (.storage .alreadyOpen))
  else
    match work db.tables with
    | .ok (t, a) => (⟨t, false⟩, .ok a)
    | .error e => (⟨db.tables, false⟩, .error e)

/-- The database with a set, and the number of new printings. -/
def insertSet (db : Database) (set : Value) : Database × Except Failure Nat :=
  match setName set with
  | .error e => (db, .error e)
  | .ok name => db.transact fun t => t.addSet name set

/-- The database with several sets, up to the first one that fails. -/
def insertSets (db : Database) : List Value → Database × Except Failure Unit
  | [] => (db, .ok ())
  | set :: rest =>
    match db.insertSet set with
    | (db, .error e) => (db, .error e)
    | (db, .ok _) => insertSets db rest

/-! ## Decks -/

/-- The database with a deck, and its id. -/
def addDeck (db : Database) (d : Deck) : Database × Except Failure Int :=
  db.transact fun t => t.addDeck d

/-- The stored id of the deck that an instance belongs to. -/
def ownerOf (t : Tables) (i : DeckInstance) : Except Failure Int :=
  match i.deckId with
  | none => .error (.deck (.unknownDeck Value.null.shown))
  | some id => do
    let id ← stored (storedInteger id)
    if t.hasDeck id then pure id else throw (.deck (.unknownDeck (toString id)))

/-- The database with one more instance of a deck. -/
def updateDeck (db : Database) (i : DeckInstance) : Database × Except Failure Unit :=
  match ownerOf db.tables i with
  | .error e => (db, .error e)
  | .ok id => db.transact fun t => (t.addInstance id i).map fun t => (t, ())

/-- A change of a stored deck, whose values are given as they are stored. A change
that can not be made leaves its transaction open, and one of a deck that is not
there leaves nothing behind. -/
def change (db : Database) (id : Except Failure Int) (work : Int → Except Failure Tables) :
    Database × Except Failure Unit :=
  match id with
  | .error e => (⟨db.tables, true⟩, .error e)
  | .ok id =>
    -- the change reaches the deck's row only if there is one
    if db.tables.hasDeck id then
      match work id with
      | .ok t => (⟨t, false⟩, .ok ())
      | .error e => (⟨db.tables, true⟩, .error e)
    else (⟨db.tables, false⟩, .error (.deck (.unknownDeck (toString id))))

/-- The database without a deck. -/
def deleteDeck (db : Database) (id : Int) : Database × Except Failure Unit :=
  db.change (stored (storedInteger id)) fun id => .ok (db.tables.withoutDeck id)

/-- The database with another text in a column of a deck. -/
def setText (db : Database) (id : Int) (column : String) (value : Value)
    (put : String → DeckRow → DeckRow) : Database × Except Failure Unit :=
  match stored (storedText 1 value) with
  | .error e => (⟨db.tables, true⟩, .error e)
  | .ok text =>
    db.change (stored (storedInteger id)) fun id => do
      let s ← Tables.required column text
      pure (db.tables.mapDeck id (put s))

/-- The database with another name of a deck. -/
def renameDeck (db : Database) (id : Int) (name : Value) : Database × Except Failure Unit :=
  if !name.truthy then (db, .error (.deck .noName))
  else db.setText id "name" name fun s r => { r with name := s }

/-- The database with another description of a deck. -/
def describeDeck (db : Database) (id : Int) (description : Value) :
    Database × Except Failure Unit :=
  if description.isNull then (db, .error (.deck .noDescription))
  else db.setText id "description" description fun s r => { r with description := s }

@[simp]
theorem insertSets_nil (db : Database) : db.insertSets [] = (db, .ok ()) := rfl

end Database

end CardArchive
