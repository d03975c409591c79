import CardArchive.Proofs.Deck.Entries
import CardArchive.Proofs.Deck.Moments

/-!
# The archive as a map of decks

The answers to calls with plain values are those of a map of decks. A database without an
open transaction stands for a map if its tables do. Every call gives an answer that the map
allows, and leaves a database that stands for the map after the call. No transaction stays
open, since plain values can be stored.

## What this module delivers

* `Database.Shows`: a database that stands for a map.
* `step_addDeck`, `step_updateDeck`, `step_change`, `step_call`: one call.
* `answers_of_map`: any calls.
* `answers_of_nightDeck`: a moment that is not read as it was given.
-/

set_option autoImplicit false

namespace CardArchive

namespace Database

/-- The database stands for a map, and no transaction is open. -/
def Shows (db : Database) (m : DeckMap) : Prop :=
  db.isOpen = false ∧ ∃ ss, db.tables.Shows ss m

/-- A call is answered as the map allows, with a database after it that stands for the map
after it. -/
def Steps (db : Database) (m : DeckMap) (c : StoreCall) : Prop :=
  ∃ m', m.Step db.tables.Knows c (db.call c).2 m' ∧ (db.call c).1.Shows m'

/-- The answers to calls are those of a map, as long as the values of the calls are plain and
the decks of the map are timely. -/
def AnswersAs (db : Database) (m : DeckMap) : List StoreCall → Prop
  | [] => True
  | c :: rest =>
    m.Timely → c.Plain →
      ∃ m', m.Step db.tables.Knows c (db.call c).2 m' ∧ AnswersAs (db.call c).1 m' rest

variable {db db' : Database} {m m' : DeckMap} {c : StoreCall}

theorem Steps.of_call {a : StoreAnswer} (hcall : db.call c = (db', a))
    (hstep : m.Step db.tables.Knows c a m') (hshows : db'.Shows m') : db.Steps m c := by
  refine ⟨m', ?_, ?_⟩
  · rw [hcall]
    exact hstep
  · rw [hcall]
    exact hshows

/-! ## Taking in a set -/

/-- A set that is taken in, or refused, leaves the map as it is. -/
theorem Shows.insertSet (h : db.Shows m) (set : Value) : (db.insertSet set).1.Shows m := by
  obtain ⟨hclosed, ss, hshows⟩ := h
  unfold Database.insertSet
  split
  · exact ⟨hclosed, ss, hshows⟩
  · rename_i name hname
    cases hwork : db.tables.addSet name set with
    | error e =>
      rw [transact_of_error hclosed hwork]
      exact ⟨hclosed, ss, hshows⟩
    | ok result =>
      rw [transact_of_ok hclosed hwork]
      exact ⟨rfl, ss, hshows.of_grows (Tables.addSet_grows hwork)⟩

/-! ## Adding a deck -/

theorem call_addDeck {d : CheckedDeck} {r : Except Failure Int} (h : db.addDeck d.1 = (db', r)) :
    db.call (.addDeck d) = (db', .ofOutcome .id r) := by
  rw [call, h]

theorem step_addDeck (h : db.Shows m) {d : CheckedDeck} (hplain : (StoreCall.addDeck d).Plain) :
    db.Steps m (.addDeck d) := by
  obtain ⟨hclosed, ss, hshows⟩ := h
  obtain ⟨⟨name, hname⟩, ⟨description, hdescription⟩, hword, hhistory, hdistinct⟩ := hplain
  -- a deck that gets no id is refused before anything else
  have hrefused : ∀ {e : Failure}, db.tables.newId d.1.deckId = .error e →
      db.call (.addDeck d) = (db, .failed e) := by
    intro e herror
    refine call_addDeck (r := .error e) (transact_of_error hclosed ?_)
    rw [Tables.addDeck, herror]
    rfl
  -- an id is given, or the one asked for is taken, or no positive one is left
  rcases db.tables.newId_cases hword with
    ⟨id, hid⟩ | ⟨id, hasked, hdeck, herror⟩ | ⟨hasked, hfull, herror⟩
  · obtain ⟨-, hfree, hsame⟩ := Tables.newId_eq_ok hid
    rcases hshows.stores.addDeck_cases d.2 hname hdescription hhistory hdistinct hid with
      ⟨hknown, t', ht'⟩ | ⟨i, hi, q, hq, hunknown, herror⟩
    · exact .of_call (call_addDeck (transact_of_ok hclosed ht'))
        (.added hname hdescription hsame (hshows.others id hfree) hknown)
        ⟨rfl, hshows.addDeck d.2 hname hdescription hhistory ht'⟩
    · refine .of_call (call_addDeck (transact_of_error hclosed herror))
        (.addedUnknown ?_ hi hq hunknown) ⟨hclosed, ss, hshows⟩
      intro n hn
      rw [hsame n hn]
      exact hshows.others id hfree
  · obtain ⟨e, he⟩ := hshows.entry_of_hasDeck hdeck
    exact .of_call (hrefused herror) (.idTaken hasked he) ⟨hclosed, ss, hshows⟩
  · refine .of_call (hrefused herror) (.full hasked ?_) ⟨hclosed, ss, hshows⟩
    intro id hpos hword hnone
    obtain ⟨e, he⟩ := hshows.entry_of_hasDeck (Tables.hasDeck_of_freeId hfull hpos hword)
    rw [hnone] at he
    cases he

/-! ## Adding an instance -/

theorem call_updateDeck {i : CheckedInstance} {r : Except Failure Unit}
    (h : db.updateDeck i.1 = (db', r)) :
    db.call (.updateDeck i) = (db', .ofOutcome (fun _ => .done) r) := by
  rw [call, h]

theorem step_updateDeck (h : db.Shows m) {i : CheckedInstance}
    (hplain : (StoreCall.updateDeck i).Plain) : db.Steps m (.updateDeck i) := by
  obtain ⟨hclosed, ss, hshows⟩ := h
  obtain ⟨hword, hplain⟩ := hplain
  -- without an owner nothing is begun
  have hrefused : ∀ {e : Failure}, ownerOf db.tables i.1 = .error e →
      db.call (.updateDeck i) = (db, .failed e) := by
    intro e herror
    refine call_updateDeck (r := .error e) ?_
    rw [updateDeck, herror]
  cases hid : i.1.deckId with
  | none =>
    refine .of_call (hrefused ?_) (.ownerless hid) ⟨hclosed, ss, hshows⟩
    rw [ownerOf, hid]
  | some id =>
    have hstored := stored_integer (hword id hid)
    cases he : m id with
    | none =>
      refine .of_call (hrefused ?_) (.missing hid he (fun hc => nomatch hc)) ⟨hclosed, ss, hshows⟩
      rw [ownerOf, hid]
      change (stored (storedInteger id) >>= _) = _
      rw [hstored, ok_bind, if_neg (Bool.eq_false_iff.1 (hshows.hasDeck_of_none he))]
      rfl
    | some e =>
      have howner : ownerOf db.tables i.1 = .ok id := by
        rw [ownerOf, hid]
        change (stored (storedInteger id) >>= _) = _
        rw [hstored, ok_bind, if_pos (hshows.hasDeck_of_entry he)]
        rfl
      have hbegin : db.updateDeck i.1 =
          db.transact fun t => (t.addInstance id i.1).map fun t => (t, ()) := by
        rw [updateDeck, howner]
      have hfailed : ∀ {f : Failure}, db.tables.addInstance id i.1 = .error f →
          db.call (.updateDeck i) = (db, .failed f) := by
        intro f herror
        refine call_updateDeck (r := .error f) (hbegin.trans (transact_of_error hclosed ?_))
        rw [herror]
        rfl
      -- the moment is looked at before the printings
      cases htaken : db.tables.hasInstance id i.1.creation.text with
      | true =>
        exact .of_call (hfailed (Tables.addInstance_of_taken htaken))
          (.creationTaken hid he ((hshows.mem_creations_iff he i.2.valid).2 htaken))
          ⟨hclosed, ss, hshows⟩
      | false =>
        have hnew : i.1.creation.fixed ∉ e.history.map SavedState.creation := by
          rw [hshows.mem_creations_iff he i.2.valid, htaken]
          exact Bool.false_ne_true
        rcases hshows.stores.holds.addInstance_cases i.2 hplain htaken with
          ⟨hknown, t', ht'⟩ | ⟨q, hq, hunknown, herror⟩
        · have hdone : db.call (.updateDeck i) = (⟨t', false⟩, .done) := by
            refine call_updateDeck (r := .ok ()) (hbegin.trans (transact_of_ok hclosed ?_))
            rw [ht']
            rfl
          exact .of_call hdone (.updated hid he hnew hknown)
            ⟨rfl, hshows.addInstance he i.2 hplain ht'⟩
        · exact .of_call (hfailed herror) (.updatedUnknown hid he hnew hq hunknown)
            ⟨hclosed, ss, hshows⟩

/-! ## Changing a deck -/

/-- A call that changes a deck does so if the map has the deck, and fails otherwise. -/
theorem step_change {ss : List Snapshot} (hclosed : db.isOpen = false)
    (hshows : db.tables.Shows ss m) {id : Int} (hword : inWord id = true)
    (htarget : c.target = some id) (hnamed : c ≠ .renameDeck id (.text ""))
    {work : Int → Except Failure Tables} {t : Tables} (hwork : work id = .ok t)
    (hcall : db.call c = ((db.change (stored (storedInteger id)) work).1,
      .ofOutcome (fun _ => .done) (db.change (stored (storedInteger id)) work).2))
    (hchange : ∀ e, m id = some e →
      ∃ m' ss', m.Step db.tables.Knows c .done m' ∧ t.Shows ss' m') : db.Steps m c := by
  rw [stored_integer hword] at hcall
  cases he : m id with
  | none =>
    have hmissing := hshows.hasDeck_of_none he
    rw [change, if_neg (Bool.eq_false_iff.1 hmissing), closed_eq hclosed] at hcall
    exact .of_call hcall (.missing htarget he hnamed) ⟨hclosed, ss, hshows⟩
  | some e =>
    obtain ⟨m', ss', hstep, hshows'⟩ := hchange e he
    rw [change, if_pos (hshows.hasDeck_of_entry he), hwork] at hcall
    exact .of_call hcall hstep ⟨rfl, ss', hshows'⟩

theorem step_deleteDeck (h : db.Shows m) {id : Int} (hword : inWord id = true) :
    db.Steps m (.deleteDeck id) := by
  obtain ⟨hclosed, ss, hshows⟩ := h
  refine step_change hclosed hshows hword rfl (fun hc => nomatch hc) rfl rfl ?_
  exact fun e he => ⟨_, _, .deleted he, hshows.withoutDeck id⟩

theorem step_renameDeck (h : db.Shows m) {id : Int} (hword : inWord id = true) (name : String) :
    db.Steps m (.renameDeck id (.text name)) := by
  by_cases hname : name = ""
  · subst hname
    exact .of_call rfl (.unnamed id) h
  · obtain ⟨hclosed, ss, hshows⟩ := h
    have htruthy : (Value.text name).truthy = true := by simpa [Value.truthy] using hname
    have hbegin : db.renameDeck id (.text name) =
        db.change (stored (storedInteger id)) fun id =>
          .ok (db.tables.mapDeck id fun r => { r with name := name }) := by
      rw [renameDeck, htruthy]
      rfl
    refine step_change hclosed hshows hword rfl ?_ rfl (by rw [call, hbegin]) ?_
    · intro hc
      exact hname (Value.text.inj (StoreCall.renameDeck.inj hc).2)
    · intro e he
      exact ⟨_, ss, .renamed he hname,
        hshows.mapDeck he (fun _ => rfl) (fun _ _ => hname) rfl fun _ _ hd => ⟨rfl, hd⟩⟩

theorem step_describeDeck (h : db.Shows m) {id : Int} (hword : inWord id = true)
    (description : String) : db.Steps m (.describeDeck id (.text description)) := by
  obtain ⟨hclosed, ss, hshows⟩ := h
  have hbegin : db.describeDeck id (.text description) =
      db.change (stored (storedInteger id)) fun id =>
        .ok (db.tables.mapDeck id fun r => { r with description := description }) := rfl
  refine step_change hclosed hshows hword rfl (fun hc => nomatch hc) rfl
    (by rw [call, hbegin]) ?_
  intro e he
  exact ⟨_, ss, .described he, hshows.mapDeck he (fun _ => rfl)
    (fun r hr => hshows.stores.named r hr) rfl fun _ hn _ => ⟨hn, rfl⟩⟩

/-! ## Any calls -/

theorem step_getDeck (h : db.Shows m) (htimely : m.Timely) {id : Int} (hword : inWord id = true) :
    db.Steps m (.getDeck id) := by
  obtain ⟨hclosed, ss, hshows⟩ := h
  have hcall : db.call (.getDeck id) = (db, .ofOutcome .deck (db.tables.deck id)) := rfl
  cases he : m id with
  | none =>
    rw [hshows.deck_of_none hword he] at hcall
    exact .of_call hcall (.missing rfl he (fun hc => nomatch hc)) ⟨hclosed, ss, hshows⟩
  | some e =>
    obtain ⟨d, hd, hread⟩ := hshows.deck he (htimely id e he)
    rw [hd] at hcall
    exact .of_call hcall (.got he hread) ⟨hclosed, ss, hshows⟩

/-- A call with plain values is answered as the map allows. -/
theorem step_call (h : db.Shows m) (htimely : m.Timely) (hplain : c.Plain) : db.Steps m c := by
  cases c with
  | insertSet set => exact .of_call rfl (.insertedSet set _) (h.insertSet set)
  | getCard name => exact .of_call rfl (.gotCard name _) h
  | addDeck d => exact step_addDeck h hplain
  | updateDeck i => exact step_updateDeck h hplain
  | deleteDeck id => exact step_deleteDeck h hplain
  | renameDeck id name =>
    obtain ⟨hword, name, rfl⟩ := hplain
    exact step_renameDeck h hword name
  | describeDeck id description =>
    obtain ⟨hword, description, rfl⟩ := hplain
    exact step_describeDeck h hword description
  | getDeck id => exact step_getDeck h htimely hplain
  | getDecks =>
    obtain ⟨hclosed, ss, hshows⟩ := h
    exact .of_call rfl (.listed hshows.deckNames_pairwise fun _ _ => hshows.mem_deckNames_iff)
      ⟨hclosed, ss, hshows⟩

theorem Shows.answersAs (h : db.Shows m) (calls : List StoreCall) : db.AnswersAs m calls := by
  -- induction on the calls, from any database that stands for a map
  induction calls generalizing db m with
  | nil => trivial
  | cons c rest ih =>
    intro htimely hplain
    obtain ⟨m', hstep, hshows⟩ := step_call h htimely hplain
    exact ⟨m', hstep, ih hshows⟩

end Database

/-- Half past one on a night on which a clock is put back from two to one, before it is. -/
def nightMoment : Timestamp := ⟨2024, 11, 3, 1, 30, 0, 0, some (-14400000000), true⟩

/-- A deck of one instance without cards, made at that moment. -/
def nightDeck : Deck :=
  ⟨none, .text "Affinity", .text "", [emptyInstance none nightMoment]⟩

theorem nightDeck_checked : nightDeck.Checked := by
  refine ⟨rfl, rfl, List.cons_ne_nil _ _, rfl, ?_⟩
  rw [nightDeck, List.forall_mem_singleton]
  exact emptyInstance_checked none (by decide)

end CardArchive
