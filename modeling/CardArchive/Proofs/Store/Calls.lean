import CardArchive.Proofs.Deck.Instances
import CardArchive.Proofs.Store.Reachable

/-!
# Calls

What can be asked of the archive, call by call: sets and decks are written, cards and decks
are read. Decks and instances are handed over as checked values. That a value is not changed
between its check and the call is an assumption. Every call has an answer, also one that
fails.

## What this module delivers

* `StoreCall`, `StoreAnswer` and `Database.call`: one call, with the database after it.
* `Database.ran` and `Database.answers`: the database after some calls, and their answers.
* `ran_induction`: what every call preserves holds after any calls.
-/

set_option autoImplicit false

namespace CardArchive

/-- A call of the archive. -/
inductive StoreCall where
  | insertSet (set : Value)
  | getCard (name : String)
  | addDeck (d : CheckedDeck)
  | updateDeck (i : CheckedInstance)
  | deleteDeck (id : Int)
  | renameDeck (id : Int) (name : Value)
  | describeDeck (id : Int) (description : Value)
  | getDeck (id : Int)
  | getDecks

/-- The answer to a call. -/
inductive StoreAnswer where
  | added (printings : Nat)
  | card (details : Option CardDetails)
  | id (n : Int)
  | done
  | deck (d : Deck)
  | decks (names : List (Int × String))
  | failed (e : Failure)

/-- The answer that an outcome is. -/
def StoreAnswer.ofOutcome {α : Type} (answer : α → StoreAnswer) : Except Failure α → StoreAnswer
  | .ok a => answer a
  | .error e => .failed e

namespace Database

/-- The database after a call, and the answer to it. -/
def call (db : Database) : StoreCall → Database × StoreAnswer
  | .insertSet set => ((db.insertSet set).1, .ofOutcome .added (db.insertSet set).2)
  | .getCard name => (db, .card (db.tables.details? name))
  | .addDeck d => ((db.addDeck d.1).1, .ofOutcome .id (db.addDeck d.1).2)
  | .updateDeck i => ((db.updateDeck i.1).1, .ofOutcome (fun _ => .done) (db.updateDeck i.1).2)
  | .deleteDeck id => ((db.deleteDeck id).1, .ofOutcome (fun _ => .done) (db.deleteDeck id).2)
  | .renameDeck id name =>
    ((db.renameDeck id name).1, .ofOutcome (fun _ => .done) (db.renameDeck id name).2)
  | .describeDeck id description =>
    ((db.describeDeck id description).1,
      .ofOutcome (fun _ => .done) (db.describeDeck id description).2)
  | .getDeck id => (db, .ofOutcome .deck (db.tables.deck id))
  | .getDecks => (db, .decks db.tables.deckNames)

/-- The database after some calls. -/
def run (db : Database) (calls : List StoreCall) : Database := calls.foldl (fun db c => (db.call c).1) db

/-- The answers to some calls. -/
def answers (db : Database) : List StoreCall → List StoreAnswer
  | [] => []
  | c :: rest => (db.call c).2 :: answers (db.call c).1 rest

/-- The database after some calls, from the one without rows. -/
def ran (calls : List StoreCall) : Database := empty.run calls

/-- What holds at first and is preserved by every call holds after any calls. -/
theorem ran_induction {P : Database → Prop} (hempty : P empty)
    (hcall : ∀ db c, P db → P (db.call c).1) (calls : List StoreCall) : P (ran calls) := by
  have hrun : ∀ (calls : List StoreCall) (db : Database), P db → P (db.run calls) := by
    intro calls
    induction calls with
    | nil => exact fun db h => h
    | cons c rest ih => exact fun db h => ih _ (hcall db c h)
  exact hrun calls empty hempty

end Database

end CardArchive
