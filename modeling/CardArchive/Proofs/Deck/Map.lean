import CardArchive.Proofs.Store.Calls

/-!
# A map of decks

Seen from outside, the archive keeps a map from ids to decks: to each id that is in use
belong a name, a description and the saved states of the deck in order of time. How the
rows of five tables make up a deck does not show. This module says what each call does to
such a map and which answers it allows. Whether a printing is stored is not part of the
map, so it is a parameter.

## What this module delivers

* `SavedState`, `DeckEntry` and `DeckMap`: the map, its entries, and what they record.
* `StoreCall.Plain`: calls whose values can be stored as they are.
* `DeckMap.Step`: the map before and after a call, with its answer.
* `Step.eq_of_ne`, `Step.eq_of_failed`, `Step.added_iff`: a call changes at most one entry,
  a failed call none, and when a deck is added.
-/

set_option autoImplicit false

namespace CardArchive

/-! ## Saved states -/

/-- What an instance says, without the order in which it lists it. -/
@[ext]
structure SavedState where
  deckId : Option Int
  creation : Timestamp
  categories : String → Option (Finset String)
  quantities : Printing → Option Int

namespace SavedState

/-- Order of saved states: the older one first. -/
def NotLater (a b : SavedState) : Prop := a.creation.instant ≤ b.creation.instant

instance : DecidableRel NotLater := fun a b => Int.decLe a.creation.instant b.creation.instant

instance : Std.Total NotLater := ⟨fun a b => Int.le_total a.creation.instant b.creation.instant⟩

instance : IsTrans SavedState NotLater := ⟨fun _ _ _ hab hbc => Int.le_trans hab hbc⟩

end SavedState

namespace DeckInstance

/-- The instance, read as a saved state. -/
def saved (i : DeckInstance) : SavedState where
  deckId := i.deckId
  creation := i.creation
  categories := fun category => (valueOf? category i.categories).map List.toFinset
  quantities := fun p => valueOf? p i.quantities

/-- The instance as one of a deck. Its moment keeps the offset that it has, so that an
ambiguous moment is no longer one. -/
def ofDeck (id : Int) (i : DeckInstance) : DeckInstance :=
  { i with deckId := some id, creation := i.creation.fixed }

/-- Whether all printings of an instance are known. -/
def UsesOnly (known : Printing → Prop) (i : DeckInstance) : Prop := ∀ q ∈ i.quantities, known q.1

/-- An instance whose values can be stored as they are. -/
def Plain (i : DeckInstance) : Prop :=
  ∀ q ∈ i.quantities, (∃ s, q.1.number = .text s) ∧ inWord q.2 = true

end DeckInstance

/-! ## The map -/

/-- A deck as it is kept under its id, with its oldest state first. -/
structure DeckEntry where
  name : String
  description : String
  history : List SavedState

/-- A deck whose moments can be compared with each other, no two of them being the same. -/
structure DeckEntry.Timely (e : DeckEntry) : Prop where
  alike : ∃ floating, ∀ s ∈ e.history, s.creation.isFloating = floating
  distinct : (e.history.map fun s => s.creation.instant).Nodup

/-- The entry with one more state, where it belongs in time. -/
def DeckEntry.insert (e : DeckEntry) (s : SavedState) : DeckEntry :=
  { e with history := e.history.orderedInsert SavedState.NotLater s }

/-- The entry of a deck that is kept under an id. -/
def DeckEntry.ofDeck (id : Int) (name description : String) (history : List DeckInstance) :
    DeckEntry :=
  ⟨name, description, (Deck.inOrder history).map fun i => (i.ofDeck id).saved⟩

/-- A deck that is the one of an entry. -/
structure Deck.Shows (d : Deck) (id : Int) (e : DeckEntry) : Prop where
  deckId : d.deckId = some id
  name : d.name = .text e.name
  description : d.description = .text e.description
  history : d.history.map DeckInstance.saved = e.history

/-- The decks by their ids. -/
def DeckMap := Int → Option DeckEntry

namespace DeckMap

/-- The map without decks. -/
def empty : DeckMap := fun _ => none

/-- The map with an entry under an id. -/
def put (m : DeckMap) (id : Int) (e : DeckEntry) : DeckMap := Function.update m id (some e)

/-- The map with no entry under an id. -/
def drop (m : DeckMap) (id : Int) : DeckMap := Function.update m id none

@[simp]
theorem put_self (m : DeckMap) (id : Int) (e : DeckEntry) : m.put id e id = some e :=
  Function.update_self ..

theorem put_ne {m : DeckMap} {id other : Int} {e : DeckEntry} (h : other ≠ id) :
    m.put id e other = m other :=
  Function.update_of_ne h ..

@[simp]
theorem drop_self (m : DeckMap) (id : Int) : m.drop id id = none :=
  Function.update_self ..

theorem drop_ne {m : DeckMap} {id other : Int} (h : other ≠ id) : m.drop id other = m other :=
  Function.update_of_ne h ..

/-- All decks are timely. -/
def Timely (m : DeckMap) : Prop := ∀ id e, m id = some e → e.Timely

end DeckMap

/-! ## Calls -/

namespace StoreCall

/-- The id of the deck that a call finds in the map, if it looks for one. -/
def target : StoreCall → Option Int
  | .updateDeck i => i.1.deckId
  | .deleteDeck id => some id
  | .renameDeck id _ => some id
  | .describeDeck id _ => some id
  | .getDeck id => some id
  | .insertSet _ => none
  | .getCard _ => none
  | .addDeck _ => none
  | .getDecks => none

/-- A call with texts where texts belong, with integers that fit into a word, and with
different moments in a deck that is to be added. -/
def Plain : StoreCall → Prop
  | .addDeck d =>
    (∃ name, d.1.name = .text name) ∧ (∃ description, d.1.description = .text description) ∧
      (∀ id ∈ d.1.deckId, inWord id = true) ∧ (∀ i ∈ d.1.history, i.Plain) ∧
      (d.1.history.map fun i => i.creation.instant).Nodup
  | .updateDeck i => (∀ id ∈ i.1.deckId, inWord id = true) ∧ i.1.Plain
  | .deleteDeck id => inWord id = true
  | .renameDeck id name => inWord id = true ∧ ∃ s, name = .text s
  | .describeDeck id description => inWord id = true ∧ ∃ s, description = .text s
  | .getDeck id => inWord id = true
  | .insertSet _ => True
  | .getCard _ => True
  | .getDecks => True

end StoreCall

/-- A call on a map of decks: its answer, and the map after it. -/
inductive DeckMap.Step (known : Printing → Prop) (m : DeckMap) :
    StoreCall → StoreAnswer → DeckMap → Prop
  -- sets and cards are not part of the map
  | insertedSet (set : Value) (a : StoreAnswer) : Step known m (.insertSet set) a m
  | gotCard (name : String) (a : StoreAnswer) : Step known m (.getCard name) a m
  -- adding a deck
  | added {d : CheckedDeck} {id : Int} {name description : String}
      (hname : d.1.name = .text name) (hdescription : d.1.description = .text description)
      (hid : ∀ n ∈ d.1.deckId, n = id) (hfree : m id = none)
      (hknown : ∀ i ∈ d.1.history, i.UsesOnly known) :
      Step known m (.addDeck d) (.id id)
        (m.put id (.ofDeck id name description d.1.history))
  | idTaken {d : CheckedDeck} {id : Int} {e : DeckEntry} (hid : d.1.deckId = some id)
      (htaken : m id = some e) : Step known m (.addDeck d) (.failed (.deck (.idTaken id))) m
  | addedUnknown {d : CheckedDeck} {i : DeckInstance} {q : Printing × Int}
      (hfree : ∀ id ∈ d.1.deckId, m id = none) (hi : i ∈ d.1.history) (hq : q ∈ i.quantities)
      (hunknown : ¬known q.1) :
      Step known m (.addDeck d)
        (.failed (.deck (.unknownPrinting q.1.card q.1.set q.1.number.shown))) m
  | full {d : CheckedDeck} (hid : d.1.deckId = none)
      (hfull : ∀ id, 0 < id → inWord id = true → m id ≠ none) :
      Step known m (.addDeck d) (.failed (.storage .outsideWord)) m
  -- adding an instance
  | updated {i : CheckedInstance} {id : Int} {e : DeckEntry} (hid : i.1.deckId = some id)
      (he : m id = some e) (hnew : i.1.creation.fixed ∉ e.history.map SavedState.creation)
      (hknown : i.1.UsesOnly known) :
      Step known m (.updateDeck i) .done (m.put id (e.insert (i.1.ofDeck id).saved))
  | creationTaken {i : CheckedInstance} {id : Int} {e : DeckEntry} (hid : i.1.deckId = some id)
      (he : m id = some e) (htaken : i.1.creation.fixed ∈ e.history.map SavedState.creation) :
      Step known m (.updateDeck i)
        (.failed (.deck (.creationTaken (toString id) i.1.creation.text))) m
  | updatedUnknown {i : CheckedInstance} {id : Int} {e : DeckEntry} {q : Printing × Int}
      (hid : i.1.deckId = some id) (he : m id = some e)
      (hnew : i.1.creation.fixed ∉ e.history.map SavedState.creation) (hq : q ∈ i.1.quantities)
      (hunknown : ¬known q.1) :
      Step known m (.updateDeck i)
        (.failed (.deck (.unknownPrinting q.1.card q.1.set q.1.number.shown))) m
  | ownerless {i : CheckedInstance} (hid : i.1.deckId = none) :
      Step known m (.updateDeck i) (.failed (.deck (.unknownDeck Value.null.shown))) m
  -- removing a deck, and changing its texts; an empty name is refused before the deck is
  -- looked for
  | deleted {id : Int} {e : DeckEntry} (he : m id = some e) :
      Step known m (.deleteDeck id) .done (m.drop id)
  | renamed {id : Int} {e : DeckEntry} {name : String} (he : m id = some e) (hname : name ≠ "") :
      Step known m (.renameDeck id (.text name)) .done (m.put id { e with name := name })
  | unnamed (id : Int) : Step known m (.renameDeck id (.text "")) (.failed (.deck .noName)) m
  | described {id : Int} {e : DeckEntry} {description : String} (he : m id = some e) :
      Step known m (.describeDeck id (.text description)) .done
        (m.put id { e with description := description })
  -- reading
  | got {id : Int} {e : DeckEntry} {d : Deck} (he : m id = some e) (hd : d.Shows id e) :
      Step known m (.getDeck id) (.deck d) m
  | listed {names : List (Int × String)} (hsorted : names.Pairwise fun a b => a.1 < b.1)
      (hnames : ∀ id name, (id, name) ∈ names ↔ ∃ e, m id = some e ∧ e.name = name) :
      Step known m .getDecks (.decks names) m
  -- any call that looks for a deck that is not there
  | missing {c : StoreCall} {id : Int} (hid : c.target = some id) (hnone : m id = none)
      (hnamed : c ≠ .renameDeck id (.text "")) :
      Step known m c (.failed (.deck (.unknownDeck (toString id)))) m

namespace DeckMap.Step

variable {known : Printing → Prop} {m m' : DeckMap} {c : StoreCall} {a : StoreAnswer}

/-- A call leaves all decks as they are but the one that it finds or adds. -/
theorem eq_of_ne (h : m.Step known c a m') {other : Int} (htarget : c.target ≠ some other)
    (hanswer : a ≠ .id other) : m' other = m other := by
  cases h with
  | added => exact put_ne fun hsame => hanswer (by rw [hsame])
  | updated hid he hnew hknown => exact put_ne fun hsame => htarget (by rw [hsame]; exact hid)
  | deleted => exact drop_ne fun hsame => htarget (by rw [hsame]; rfl)
  | renamed => exact put_ne fun hsame => htarget (by rw [hsame]; rfl)
  | described => exact put_ne fun hsame => htarget (by rw [hsame]; rfl)
  | _ => rfl

/-- A call that fails leaves all decks as they are. -/
theorem eq_of_failed {e : Failure} (h : m.Step known c (.failed e) m') : m' = m := by
  cases h with
  | _ => rfl

/-- A deck is added exactly if its id is free and all its printings are known, as long as
there is an id for a deck without one. -/
theorem added_iff {d : CheckedDeck} (h : m.Step known (.addDeck d) a m')
    (hroom : ∃ id, 0 < id ∧ inWord id = true ∧ m id = none) :
    (∃ id, a = .id id) ↔
      (∀ id ∈ d.1.deckId, m id = none) ∧ ∀ i ∈ d.1.history, i.UsesOnly known := by
  cases h with
  | @added _ id _ _ _ _ hid hfree hknown =>
    refine ⟨fun _ => ⟨fun n hn => ?_, hknown⟩, fun _ => ⟨id, rfl⟩⟩
    rw [hid n hn]
    exact hfree
  | idTaken hid htaken =>
    refine ⟨fun ⟨_, ha⟩ => (nomatch ha), fun ⟨hfree, _⟩ => ?_⟩
    rw [hfree _ hid] at htaken
    cases htaken
  | addedUnknown hfree hi hq hunknown =>
    exact ⟨fun ⟨_, ha⟩ => (nomatch ha), fun ⟨_, hknown⟩ => absurd (hknown _ hi _ hq) hunknown⟩
  | full hid hfull =>
    obtain ⟨id, hpos, hword, hfree⟩ := hroom
    exact absurd hfree (hfull id hpos hword)
  | missing hid => cases hid

end DeckMap.Step

end CardArchive
