import CardArchive.Proofs.Store.Growth
import CardArchive.Store.Database
import CardArchive.Store.Matches

/-!
# Tables that changes can reach

The database changes by sets that are taken in and by changes of decks, each of which
may fail. Sets only insert rows, and decks leave the tables of cards alone. An invariant
of the tables of cards therefore needs a proof for the empty tables and for one
insertion only.

## What this module delivers

* `Change` and `Database.after`: the database after some changes.
* `transact_of_ok`, `transact_of_error`, `transact_ok`, `transact_error`: what a transaction
  does.
* `changed_sets`: what one change does to the tables.
* `after_preserves_sets`, `after_preserves`: an invariant of the tables of cards holds after
  any changes.
* `printings_nodup_after`: no two printings have the same key.
-/

set_option autoImplicit false

namespace CardArchive

/-- A change of the database, as it was asked for. -/
inductive Change where
  | insertSet (set : Value)
  | addDeck (d : Deck)
  | updateDeck (i : DeckInstance)
  | deleteDeck (id : Int)
  | renameDeck (id : Int) (name : Value)
  | describeDeck (id : Int) (description : Value)

namespace Database

/-- The database after a change was asked for, whether it succeeded or not. -/
def changed (db : Database) : Change → Database
  | .insertSet set => (db.insertSet set).1
  | .addDeck d => (db.addDeck d).1
  | .updateDeck i => (db.updateDeck i).1
  | .deleteDeck id => (db.deleteDeck id).1
  | .renameDeck id name => (db.renameDeck id name).1
  | .describeDeck id description => (db.describeDeck id description).1

/-- The database after some changes, from the one without rows. -/
def after (changes : List Change) : Database := changes.foldl changed empty

end Database

namespace Tables

/-- The tables without their decks. -/
def cardPart (t : Tables) : Tables :=
  { t with decks := [], instances := [], categories := [], quantities := [], members := [] }

theorem addInstance_cardPart {t t' : Tables} {id : Int} {i : DeckInstance}
    (h : t.addInstance id i = .ok t') : t'.cardPart = t.cardPart := by
  unfold addInstance at h
  obtain ⟨-, h⟩ := refuse_eq_ok.1 h
  obtain ⟨_, -, h⟩ := bind_eq_ok.1 h
  obtain ⟨_, -, h⟩ := bind_eq_ok.1 h
  cases h
  rfl

theorem addInstances_cardPart {t t' : Tables} {id : Int} {is : List DeckInstance}
    (h : t.addInstances id is = .ok t') : t'.cardPart = t.cardPart := by
  induction is generalizing t with
  | nil =>
    cases h
    rfl
  | cons i is ih =>
    unfold addInstances at h
    obtain ⟨mid, hmid, h⟩ := bind_eq_ok.1 h
    rw [ih h, addInstance_cardPart hmid]

theorem addDeck_cardPart {t t' : Tables} {d : Deck} {id : Int} (h : t.addDeck d = .ok (t', id)) :
    t'.cardPart = t.cardPart := by
  unfold addDeck at h
  obtain ⟨_, -, h⟩ := bind_eq_ok.1 h
  obtain ⟨_, -, h⟩ := bind_eq_ok.1 h
  obtain ⟨_, -, h⟩ := bind_eq_ok.1 h
  obtain ⟨_, -, h⟩ := bind_eq_ok.1 h
  obtain ⟨_, -, h⟩ := bind_eq_ok.1 h
  obtain ⟨mid, hmid, h⟩ := bind_eq_ok.1 h
  cases h
  rw [addInstances_cardPart hmid]
  rfl

end Tables

namespace Database

/-! ## Transactions -/

theorem closed_eq {db : Database} (hclosed : db.isOpen = false) :
    (⟨db.tables, false⟩ : Database) = db := by
  rw [← hclosed]

section Transact

variable {db : Database} {α : Type} {work : Tables → Except Failure (Tables × α)}

theorem transact_of_ok (hclosed : db.isOpen = false) {t : Tables} {a : α}
    (h : work db.tables = .ok (t, a)) : db.transact work = (⟨t, false⟩, .ok a) := by
  rw [transact, if_neg (Bool.eq_false_iff.1 hclosed), h]

theorem transact_of_error (hclosed : db.isOpen = false) {e : Failure}
    (h : work db.tables = .error e) : db.transact work = (db, .error e) := by
  rw [transact, if_neg (Bool.eq_false_iff.1 hclosed), h, ← closed_eq hclosed]

/-- A transaction that succeeds began with none open, and has done its work. -/
theorem transact_ok {a : α} (h : (db.transact work).2 = .ok a) :
    db.isOpen = false ∧ work db.tables = .ok ((db.transact work).1.tables, a) ∧
      (db.transact work).1.isOpen = false := by
  cases hopen : db.isOpen with
  | true =>
    rw [transact, if_pos hopen] at h
    cases h
  | false =>
    cases hwork : work db.tables with
    | error e =>
      rw [transact_of_error hopen hwork] at h
      cases h
    | ok b =>
      rw [transact_of_ok hopen hwork] at h ⊢
      obtain rfl := Except.ok.inj h
      exact ⟨rfl, rfl, rfl⟩

/-- A transaction that fails leaves the database as it was. -/
theorem transact_error {e : Failure} (h : (db.transact work).2 = .error e) :
    (db.transact work).1 = db := by
  cases hopen : db.isOpen with
  | true => rw [transact, if_pos hopen]
  | false =>
    cases hwork : work db.tables with
    | error e' => rw [transact_of_error hopen hwork]
    | ok b =>
      rw [transact_of_ok hopen hwork] at h
      cases h

end Transact

/-! ## Changes -/

/-- A transaction leaves the tables as they were, or as its work has made them. -/
theorem transact_cases {α : Type} (db : Database) (work : Tables → Except Failure (Tables × α)) :
    (db.transact work).1.tables = db.tables ∨
      ∃ t a, work db.tables = .ok (t, a) ∧ (db.transact work).1.tables = t := by
  unfold transact
  split
  · exact .inl rfl
  · split
    · rename_i t a hwork
      exact .inr ⟨t, a, hwork, rfl⟩
    · exact .inl rfl

/-- A change of a stored deck leaves the tables as they were, or as its work has made
them. -/
theorem change_cases (db : Database) (id : Except Failure Int)
    (work : Int → Except Failure Tables) :
    (db.change id work).1.tables = db.tables ∨
      ∃ n t, work n = .ok t ∧ (db.change id work).1.tables = t := by
  unfold change
  split
  · exact .inl rfl
  · rename_i n
    split
    · split
      · rename_i t hwork
        exact .inr ⟨n, t, hwork, rfl⟩
      · exact .inl rfl
    · exact .inl rfl

theorem setText_cardPart (db : Database) (id : Int) (column : String) (value : Value)
    (put : String → DeckRow → DeckRow) :
    (db.setText id column value put).1.tables.cardPart = db.tables.cardPart := by
  unfold setText
  split
  · rfl
  · rename_i text htext
    rcases db.change_cases (stored (storedInteger id)) (fun id => do
      let s ← Tables.required column text
      pure (db.tables.mapDeck id (put s))) with h | ⟨n, t, hwork, h⟩
    · rw [h]
    · -- the text is put into a deck, whose table is no table of cards
      obtain ⟨s, -, hwork⟩ := bind_eq_ok.1 hwork
      rw [h]
      cases hwork
      rfl

/-- A set that is taken in inserts rows, and one that is refused leaves the tables as they
were. -/
theorem insertSet_cases (db : Database) (set : Value) :
    (db.insertSet set).1.tables = db.tables ∨
      ∃ name n t, setName set = .ok name ∧ db.tables.addSet name set = .ok (t, n) ∧
        (db.insertSet set).1.tables = t := by
  unfold insertSet
  split
  · exact .inl rfl
  · rename_i name hname
    rcases db.transact_cases (fun t => t.addSet name set) with h | ⟨t, n, hwork, h⟩
    · exact .inl h
    · exact .inr ⟨name, n, t, hname, hwork, h⟩

theorem addDeck_cardPart (db : Database) (d : Deck) :
    (db.addDeck d).1.tables.cardPart = db.tables.cardPart := by
  rcases db.transact_cases (fun t => t.addDeck d) with h | ⟨t, id, hwork, h⟩
  · rw [addDeck, h]
  · rw [addDeck, h, Tables.addDeck_cardPart hwork]

theorem updateDeck_cardPart (db : Database) (i : DeckInstance) :
    (db.updateDeck i).1.tables.cardPart = db.tables.cardPart := by
  unfold updateDeck
  split
  · rfl
  · rename_i id hid
    rcases db.transact_cases (fun t => (t.addInstance id i).map fun t => (t, ())) with
      h | ⟨t, u, hwork, h⟩
    · rw [h]
    · obtain ⟨t', hadded, ht⟩ := map_eq_ok.1 hwork
      cases ht
      rw [h, Tables.addInstance_cardPart hadded]

theorem deleteDeck_cardPart (db : Database) (id : Int) :
    (db.deleteDeck id).1.tables.cardPart = db.tables.cardPart := by
  rcases db.change_cases (stored (storedInteger id)) (fun id => .ok (db.tables.withoutDeck id))
    with h | ⟨n, t, hwork, h⟩
  · rw [deleteDeck, h]
  · rw [deleteDeck, h]
    cases hwork
    rfl

theorem renameDeck_cardPart (db : Database) (id : Int) (name : Value) :
    (db.renameDeck id name).1.tables.cardPart = db.tables.cardPart := by
  unfold renameDeck
  split
  · rfl
  · exact db.setText_cardPart id "name" name _

theorem describeDeck_cardPart (db : Database) (id : Int) (description : Value) :
    (db.describeDeck id description).1.tables.cardPart = db.tables.cardPart := by
  unfold describeDeck
  split
  · rfl
  · exact db.setText_cardPart id "description" description _

/-- A change takes in a set, or leaves the tables of cards as they were. -/
theorem changed_sets (db : Database) (c : Change) :
    (∃ name set n, db.tables.addSet name set = .ok ((db.changed c).tables, n)) ∨
      (db.changed c).tables.cardPart = db.tables.cardPart := by
  cases c with
  | insertSet set =>
    change (∃ name set' n, db.tables.addSet name set' = .ok ((db.insertSet set).1.tables, n)) ∨
      (db.insertSet set).1.tables.cardPart = _
    rcases db.insertSet_cases set with h | ⟨name, n, t, -, hset, rfl⟩
    · rw [h]
      exact .inr rfl
    · exact .inl ⟨name, set, n, hset⟩
  | addDeck d => exact .inr (db.addDeck_cardPart d)
  | updateDeck i => exact .inr (db.updateDeck_cardPart i)
  | deleteDeck id => exact .inr (db.deleteDeck_cardPart id)
  | renameDeck id name => exact .inr (db.renameDeck_cardPart id name)
  | describeDeck id description => exact .inr (db.describeDeck_cardPart id description)

/-- What holds of the empty tables, survives the sets that are taken in and does not look at
decks, holds after any changes. -/
theorem after_preserves_sets {P : Tables → Prop} (hempty : P Tables.empty)
    (hset : ∀ t t' name set n, Tables.addSet t name set = .ok (t', n) → P t → P t')
    (hdecks : ∀ t t', t'.cardPart = t.cardPart → P t → P t') (changes : List Change) :
    P (after changes).tables := by
  -- induction on the changes, from any database that has the invariant
  have run : ∀ (changes : List Change) (db : Database), P db.tables →
      P (changes.foldl changed db).tables := by
    intro changes
    induction changes with
    | nil => exact fun db h => h
    | cons c rest ih =>
      intro db h
      apply ih
      rcases db.changed_sets c with ⟨name, set, n, hadded⟩ | hsame
      · exact hset _ _ name set n hadded h
      · exact hdecks _ _ hsame h
  exact run changes empty hempty

/-- What holds of the empty tables, survives one insertion and does not look at decks,
holds after any changes. -/
theorem after_preserves {P : Tables → Prop} (hempty : P Tables.empty)
    (hinsert : ∀ t t', Tables.Insertion t t' → P t → P t')
    (hdecks : ∀ t t', t'.cardPart = t.cardPart → P t → P t') (changes : List Change) :
    P (after changes).tables :=
  after_preserves_sets hempty (fun _ _ _ _ _ h => (Tables.addSet_grows h).preserves hinsert)
    hdecks changes

end Database

/-! ## Keys of printings -/

theorem key_eq_iff {a b : PrintingRow} :
    a.key = b.key ↔ (a.card == b.card && a.expansion == b.expansion && a.number == b.number) =
      true := by
  simp [PrintingRow.key, and_assoc]

/-- No two printings have the same key. -/
def Tables.PrintingsDistinct (t : Tables) : Prop := (t.printings.map PrintingRow.key).Nodup

theorem printingsDistinct_insertion {t t' : Tables} (h : Tables.Insertion t t')
    (ht : t.PrintingsDistinct) : t'.PrintingsDistinct := by
  cases h with
  | printing r hnew hcard hset =>
    -- a row with the same key would have made the insertion be skipped
    have hfresh : r.key ∉ t.printings.map PrintingRow.key := by
      intro hmem
      obtain ⟨b, hb, hkey⟩ := List.mem_map.1 hmem
      have hclash := List.any_eq_false.1 hnew b hb
      exact hclash (key_eq_iff.1 hkey.symm)
    rw [Tables.PrintingsDistinct, List.map_append, List.map_singleton]
    refine List.Nodup.append ht (List.nodup_singleton _) ?_
    intro k hk hr
    rw [List.mem_singleton.1 hr] at hk
    exact hfresh hk
  | label s r hnew hcard =>
    cases s <;> exact ht
  | card r hnew => exact ht
  | mana r hnew hcard => exact ht
  | power r hnew hcard => exact ht
  | loyalty r hnew hcard => exact ht
  | expansion r hnew => exact ht
  | block r hnew hset => exact ht
  | pair r hnew hcards => exact ht
  | triple r hnew hcards => exact ht

theorem printings_of_cardPart {t t' : Tables} (h : t'.cardPart = t.cardPart) :
    t'.printings = t.printings := by
  have hsame := congrArg Tables.printings h
  exact hsame

/-- After any changes, no two printings have the same key. -/
theorem printings_nodup_after (changes : List Change) :
    (Database.after changes).tables.PrintingsDistinct := by
  apply Database.after_preserves
  · exact List.nodup_nil
  · exact fun t t' h ht => printingsDistinct_insertion h ht
  · intro t t' h ht
    rw [Tables.PrintingsDistinct, printings_of_cardPart h]
    exact ht

end CardArchive
