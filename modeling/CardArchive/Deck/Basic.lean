import CardArchive.Failure
import CardArchive.Timestamp.Basic
import CardArchive.Value.Basic

/-!
# Decks

A deck has a name, a description and a history. Each instance of the history
records, for one moment, which cards the categories held and how many copies of
each printing were used. Every printing's card is in some category, and every
quantity is positive.

## What this module delivers

* `Printing`: a card in a set under a number.
* `DeckInstance` and `DeckInstance.ofParts`: one moment, checked.
* `Deck` and `Deck.ofParts`: a deck whose history is in order of time.
* `Deck.latest?`: the newest instance.
-/

set_option autoImplicit false

namespace CardArchive

/-! ## Keyed lists -/

/-- The pairs with the value of a key replaced where it stands, or added at the
end. -/
def putKey {κ α : Type} [DecidableEq κ] (key : κ) (value : α) : List (κ × α) → List (κ × α)
  | [] => [(key, value)]
  | (k, v) :: rest => if k = key then (k, value) :: rest else (k, v) :: putKey key value rest

/-- The pairs with each key once: in its first place and with its last value. -/
def lastValues {κ α : Type} [DecidableEq κ] (pairs : List (κ × α)) : List (κ × α) :=
  pairs.foldl (fun acc p => putKey p.1 p.2 acc) []

/-- Value of a key. -/
def valueOf? {κ α : Type} [DecidableEq κ] (key : κ) : List (κ × α) → Option α
  | [] => none
  | (k, v) :: rest => if k = key then some v else valueOf? key rest

/-! ## Printings -/

/-- The number of a printing within its set. A text and an integer differ until they
are stored. -/
inductive PrintingNumber where
  | text (s : String)
  | integer (n : Int)
deriving DecidableEq

namespace PrintingNumber

/-- The number as a value. -/
def toValue : PrintingNumber → Value
  | text s => .text s
  | integer n => .int n

/-- The number as it is shown. -/
def shown (n : PrintingNumber) : String := n.toValue.shown

end PrintingNumber

/-- A printing: the names of card and set, and the number within the set. -/
structure Printing where
  card : String
  set : String
  number : PrintingNumber
deriving DecidableEq

/-! ## Instances -/

/-- What a deck held at one moment. -/
structure DeckInstance where
  deckId : Option Int
  creation : Timestamp
  categories : List (String × List String)
  quantities : List (Printing × Int)

namespace DeckInstance

/-- The cards of some categories, each once. -/
def cardsOf (categories : List (String × List String)) : List String :=
  (categories.flatMap Prod.snd).eraseDups

/-- The cards of an instance. -/
def cards (i : DeckInstance) : List String := cardsOf i.categories

/-- The quantity that a value is: a positive integer. -/
def quantity? : Value → Option Int
  | .int n => if 1 ≤ n then some n else none
  | _ => none

/-- The quantities of printings whose cards are all among the given ones. -/
def checkQuantities (cards : List String) :
    List (Printing × Value) → Except DeckFault (List (Printing × Int))
  | [] => .ok []
  | (p, v) :: rest => do
    let n ← match quantity? v with
      | some n => pure n
      | none => throw (.badQuantity p.card)
    if !cards.contains p.card then throw (.uncategorized p.card)
    let others ← checkQuantities cards rest
    pure ((p, n) :: others)

/-- The instance of some parts. A repeated category or printing takes its last
value; what is no point in time is no `creation`. -/
def ofParts (deckId : Option Int) (creation : Option Timestamp)
    (categories : List (String × List String)) (quantities : List (Printing × Value)) :
    Except DeckFault DeckInstance := do
  let creation ← match creation with
    | some t => pure t
    | none => throw .noCreation
  let categories := (lastValues categories).map fun c => (c.1, c.2.eraseDups)
  let quantities ← checkQuantities (cardsOf categories) (lastValues quantities)
  pure ⟨deckId, creation, categories, quantities⟩

end DeckInstance

/-! ## Decks -/

/-- A deck with its history, oldest instance first. -/
structure Deck where
  deckId : Option Int
  name : Value
  description : Value
  history : List DeckInstance

namespace Deck

/-- Whether instances can be put in order of time: either all of them float or none
does. A single one always can. -/
def areOrdered : List DeckInstance → Bool
  | [] => true
  | i :: rest => rest.all fun j => j.creation.isFloating == i.creation.isFloating

/-- The instances in order of time; those of one moment keep their order. -/
def inOrder (history : List DeckInstance) : List DeckInstance :=
  history.mergeSort fun a b => decide (a.creation.instant ≤ b.creation.instant)

/-- The deck of some parts, its history put in order. -/
def ofParts (deckId : Option Int) (name description : Value) (history : List DeckInstance) :
    Except Failure Deck :=
  if !name.truthy then .error (.deck .noName)
  else if description.isNull then .error (.deck .noDescription)
  else if history.isEmpty then .error (.deck .noHistory)
  else if areOrdered history then .ok ⟨deckId, name, description, inOrder history⟩
  else .error (.shape (.unordered "datetime.datetime" "datetime.datetime"))

/-- The newest instance. -/
def latest? (d : Deck) : Option DeckInstance := d.history.getLast?

end Deck

/-- A key just put is found. -/
@[simp]
theorem valueOf?_putKey_self {κ α : Type} [DecidableEq κ] (key : κ) (value : α)
    (pairs : List (κ × α)) : valueOf? key (putKey key value pairs) = some value := by
  induction pairs with
  | nil => simp [putKey, valueOf?]
  | cons p rest ih =>
    obtain ⟨k, v⟩ := p
    by_cases h : k = key <;> simp [putKey, valueOf?, h, ih]

/-- Putting a history in order neither drops nor adds an instance. -/
theorem Deck.inOrder_perm (history : List DeckInstance) :
    (Deck.inOrder history).Perm history :=
  List.mergeSort_perm _ _

end CardArchive
