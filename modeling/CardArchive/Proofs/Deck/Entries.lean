import CardArchive.Proofs.Deck.Reading
import CardArchive.Proofs.Deck.Writing

/-!
# Tables that stand for a map of decks

The tables are related to a map of decks through their list of snapshots: each deck's row
agrees with the entry of its id, and the snapshots of the deck are the saved states of the
entry, in any order. Adding, changing and removing decks and instances keeps this relation,
with the same change made on both sides. What is read of the tables is what the map has,
since different moments leave no choice about their order.

## What this module delivers

* `DeckRow.Shows` and `Tables.Shows`: rows and tables that stand for entries and maps.
* `Shows.addDeck`, `Shows.addInstance`, `Shows.withoutDeck`, `Shows.mapDeck`: the changes.
* `Shows.deck`, `Shows.mem_deckNames_iff`: what is read.
-/

set_option autoImplicit false

namespace CardArchive

/-! ## Tables that stand for a map -/

/-- The saved states of a deck among the snapshots. -/
def statesOf (ss : List Snapshot) (id : Int) : List SavedState :=
  (ss.filter fun s => s.deck == id).map fun s => s.state.saved

theorem statesOf_append (ss new : List Snapshot) (id : Int) :
    statesOf (ss ++ new) id = statesOf ss id ++ statesOf new id := by
  rw [statesOf, List.filter_append, List.map_append]
  rfl

/-- New snapshots of one deck are no saved states of another. -/
theorem statesOf_of_ne {new : List Snapshot} {id other : Int} (h : ∀ s ∈ new, s.deck = id)
    (hne : other ≠ id) : statesOf new other = [] := by
  have hnone : new.filter (fun s => s.deck == other) = [] := by
    rw [List.filter_eq_nil_iff]
    intro s hs hdeck
    exact hne ((eq_of_beq hdeck).symm.trans (h s hs))
  rw [statesOf, hnone]
  rfl

theorem statesOf_of_all {new : List Snapshot} {id : Int} (h : ∀ s ∈ new, s.deck = id) :
    statesOf new id = new.map fun s => s.state.saved := by
  rw [statesOf, List.filter_eq_self.2]
  exact fun s hs => beq_iff_eq.2 (h s hs)

/-- A row stands for an entry, together with the snapshots of its deck. -/
structure DeckRow.Shows (r : DeckRow) (ss : List Snapshot) (e : DeckEntry) : Prop where
  name : e.name = r.name
  description : e.description = r.description
  inTime : e.history.Pairwise SavedState.NotLater
  history : e.history.Perm (statesOf ss r.id)

/-- The tables stand for a map: each deck's row for the entry of its id. -/
structure Tables.Shows (t : Tables) (ss : List Snapshot) (m : DeckMap) : Prop where
  stores : t.Stores ss
  entries : ∀ r ∈ t.decks, ∃ e, m r.id = some e ∧ r.Shows ss e
  others : ∀ id, t.hasDeck id = false → m id = none

namespace Tables.Shows

variable {t t' : Tables} {ss : List Snapshot} {m : DeckMap} {id : Int} {e : DeckEntry}

theorem empty : Tables.empty.Shows [] DeckMap.empty :=
  ⟨.empty, fun _ hr => (nomatch hr), fun _ _ => rfl⟩

/-- An entry has its row. -/
theorem row_of_entry (h : t.Shows ss m) (he : m id = some e) :
    ∃ r ∈ t.decks, r.id = id ∧ r.Shows ss e := by
  cases hdeck : t.hasDeck id with
  | false =>
    rw [h.others id hdeck] at he
    cases he
  | true =>
    obtain ⟨r, hr, hid⟩ := List.mem_map.1 (Tables.hasDeck_iff.1 hdeck)
    obtain ⟨e', he', hshows⟩ := h.entries r hr
    rw [hid, he] at he'
    obtain rfl := Option.some.inj he'
    exact ⟨r, hr, hid, hshows⟩

theorem hasDeck_of_entry (h : t.Shows ss m) (he : m id = some e) : t.hasDeck id = true := by
  obtain ⟨r, hr, hid, -⟩ := h.row_of_entry he
  exact hid ▸ Tables.hasDeck_of_mem hr

theorem entry_of_hasDeck (h : t.Shows ss m) (hdeck : t.hasDeck id = true) :
    ∃ e, m id = some e := by
  obtain ⟨r, hr, rfl⟩ := List.mem_map.1 (Tables.hasDeck_iff.1 hdeck)
  obtain ⟨e, he, -⟩ := h.entries r hr
  exact ⟨e, he⟩

theorem hasDeck_of_none (h : t.Shows ss m) (hnone : m id = none) : t.hasDeck id = false := by
  rw [Bool.eq_false_iff]
  intro hdeck
  obtain ⟨e, he⟩ := h.entry_of_hasDeck hdeck
  rw [hnone] at he
  cases he

theorem ne_of_entry (h : t.Shows ss m) (he : m id = some e) {other : Int}
    (hother : t.hasDeck other = false) : other ≠ id := by
  rintro rfl
  rw [h.hasDeck_of_entry he] at hother
  cases hother

/-- The moments of an entry are those of which its deck has instances. -/
theorem mem_creations_iff (h : t.Shows ss m) (he : m id = some e) {moment : Timestamp}
    (hvalid : moment.isValid = true) :
    moment.fixed ∈ e.history.map SavedState.creation ↔ t.hasInstance id moment.text = true := by
  obtain ⟨r, -, rfl, hshows⟩ := h.row_of_entry he
  rw [h.stores.holds.hasInstance_iff, (hshows.history.map SavedState.creation).mem_iff, statesOf,
    List.map_map, List.mem_map, List.mem_map]
  constructor
  · rintro ⟨s, hs, hmoment⟩
    obtain ⟨hs, hdeck⟩ := List.mem_filter.1 hs
    have hsame : s.state.creation = moment.fixed := hmoment
    have htext : s.creation = moment.text := by
      rw [Snapshot.creation, hsame, Timestamp.fixed_text]
    exact ⟨s, hs, Prod.ext (eq_of_beq hdeck) htext⟩
  · rintro ⟨s, hs, hkey⟩
    obtain ⟨hdeck, htext⟩ := Prod.mk.inj hkey
    exact ⟨s, List.mem_filter.2 ⟨hs, beq_iff_eq.2 hdeck⟩,
      s.settled.symm.trans (Timestamp.text_injective s.checked.valid hvalid htext)⟩

/-! ## Changes -/

/-- A deck that is added has the entry of its id, and no other entry changes. -/
theorem addDeck (h : t.Shows ss m) {d : Deck} (hd : d.Checked) {name description : String}
    (hname : d.name = .text name) (hdescription : d.description = .text description)
    (hplain : ∀ i ∈ d.history, i.Plain) (hadded : t.addDeck d = .ok (t', id)) :
    ∃ ss', t'.Shows ss' (m.put id (.ofDeck id name description d.history)) := by
  obtain ⟨name', description', new, hid, hname', hdescription', hdecks, hnew, hstates, hstores⟩ :=
    h.stores.addDeck hd hadded
  rw [hname] at hname'
  rw [hdescription] at hdescription'
  obtain rfl : name = name' := Option.some.inj (Except.ok.inj hname')
  obtain rfl : description = description' := Option.some.inj (Except.ok.inj hdescription')
  obtain ⟨-, hfree, -⟩ := Tables.newId_eq_ok hid
  -- the new snapshots are the saved states of the new entry, in its order
  have hsaved : new.map (fun s => s.state.saved) =
      d.history.map fun i => (i.ofDeck id).saved := by
    have hkept := congrArg (List.map DeckInstance.saved) hstates
    rw [List.map_map, List.map_map] at hkept
    exact hkept.trans (List.map_congr_left fun i hi => DeckInstance.saved_kept (hplain i hi) id)
  refine ⟨ss ++ new, hstores, ?_, ?_⟩
  · rw [hdecks, List.forall_mem_append, List.forall_mem_singleton]
    refine ⟨fun r hr => ?_, _, DeckMap.put_self .., rfl, rfl, ?_, ?_⟩
    · -- another deck keeps its entry, since the id was free
      have hne : r.id ≠ id := by
        rintro rfl
        rw [Tables.hasDeck_of_mem hr] at hfree
        cases hfree
      obtain ⟨e, he, hshows⟩ := h.entries r hr
      refine ⟨e, (DeckMap.put_ne hne).trans he, hshows.name, hshows.description, hshows.inTime, ?_⟩
      rw [statesOf_append, statesOf_of_ne hnew hne, List.append_nil]
      exact hshows.history
    · exact List.pairwise_map.2 (Deck.pairwise_inOrder d.history)
    · -- a free id has no snapshots yet
      have hold : statesOf ss id = [] := by
        rw [statesOf, List.map_eq_nil_iff, List.filter_eq_nil_iff]
        intro s hs hdeck
        have howned := h.stores.owned s hs
        rw [eq_of_beq hdeck, hfree] at howned
        cases howned
      rw [statesOf_append, hold, List.nil_append, statesOf_of_all hnew, hsaved]
      exact (Deck.inOrder_perm d.history).map _
  · intro other hother
    rw [Tables.hasDeck_append hdecks, Bool.or_eq_false_iff] at hother
    have hne : id ≠ other := by simpa using hother.2
    rw [DeckMap.put_ne (Ne.symm hne)]
    exact h.others other hother.1

/-- An instance that is added is one more state of its deck. -/
theorem addInstance (h : t.Shows ss m) (he : m id = some e) {i : DeckInstance} (hi : i.Checked)
    (hplain : i.Plain) (hadded : t.addInstance id i = .ok t') :
    ∃ ss', t'.Shows ss' (m.put id (e.insert (i.ofDeck id).saved)) := by
  obtain ⟨s, hdeck, hstate, hstores, hdecks⟩ :=
    h.stores.addInstance (h.hasDeck_of_entry he) hi hadded
  have hnew : ∀ x ∈ [s], x.deck = id := List.forall_mem_singleton.2 hdeck
  have hsaved : s.state.saved = (i.ofDeck id).saved := by
    rw [hstate, DeckInstance.saved_kept hplain]
  refine ⟨ss ++ [s], hstores, ?_, ?_⟩
  · rw [hdecks]
    intro r hr
    obtain ⟨e', he', hshows⟩ := h.entries r hr
    by_cases hsame : r.id = id
    · rw [hsame, he] at he'
      obtain rfl := Option.some.inj he'
      refine ⟨e.insert (i.ofDeck id).saved, by rw [hsame, DeckMap.put_self], hshows.name,
        hshows.description, hshows.inTime.orderedInsert (i.ofDeck id).saved _, ?_⟩
      -- the map has the new state where it belongs in time, the tables have it last
      rw [statesOf_append, hsame, statesOf_of_all hnew, List.map_singleton, hsaved]
      have hhistory := hshows.history
      rw [hsame] at hhistory
      exact (List.perm_orderedInsert SavedState.NotLater (i.ofDeck id).saved e.history).trans
        ((hhistory.cons _).trans (List.perm_append_singleton (i.ofDeck id).saved _).symm)
    · refine ⟨e', (DeckMap.put_ne hsame).trans he', hshows.name, hshows.description,
        hshows.inTime, ?_⟩
      rw [statesOf_append, statesOf_of_ne hnew hsame, List.append_nil]
      exact hshows.history
  · intro other hother
    rw [Tables.hasDeck_congr hdecks] at hother
    rw [DeckMap.put_ne (h.ne_of_entry he hother)]
    exact h.others other hother

/-- A deck that is removed has no entry any more, and no other entry changes. -/
theorem withoutDeck (h : t.Shows ss m) (id : Int) :
    (t.withoutDeck id).Shows (ss.filter fun s => s.deck != id) (m.drop id) := by
  refine ⟨h.stores.withoutDeck id, ?_, ?_⟩
  · intro r hr
    obtain ⟨hr, hne⟩ := List.mem_filter.1 hr
    obtain ⟨e, he, hshows⟩ := h.entries r hr
    have hne : r.id ≠ id := by simpa using hne
    refine ⟨e, (DeckMap.drop_ne hne).trans he, hshows.name, hshows.description, hshows.inTime, ?_⟩
    -- the snapshots that are gone are none of this deck
    have hkeep : statesOf (ss.filter fun s => s.deck != id) r.id = statesOf ss r.id := by
      rw [statesOf, List.filter_filter, statesOf]
      congr 2
      funext s
      by_cases hs : s.deck = r.id
      · simp [hs, hne]
      · simp [hs]
    rw [hkeep]
    exact hshows.history
  · intro other hother
    by_cases hsame : other = id
    · rw [hsame, DeckMap.drop_self]
    · rw [Tables.hasDeck_withoutDeck_ne hsame] at hother
      rw [DeckMap.drop_ne hsame]
      exact h.others other hother

/-- A change of the texts of a deck is one of the texts of its entry. -/
theorem mapDeck (h : t.Shows ss m) (he : m id = some e) {change : DeckRow → DeckRow}
    {e' : DeckEntry} (hid : ∀ r, (change r).id = r.id)
    (hnamed : ∀ r ∈ t.decks, (change r).name ≠ "") (hhistory : e'.history = e.history)
    (hchange : ∀ r, e.name = r.name → e.description = r.description →
      e'.name = (change r).name ∧ e'.description = (change r).description) :
    (t.mapDeck id change).Shows ss (m.put id e') := by
  refine ⟨h.stores.mapDeck hid hnamed, ?_, ?_⟩
  · intro _ hmem
    obtain ⟨r, hr, rfl⟩ := List.mem_map.1 hmem
    obtain ⟨e₀, he₀, hshows⟩ := h.entries r hr
    by_cases hsame : r.id = id
    · rw [hsame, he] at he₀
      obtain rfl := Option.some.inj he₀
      obtain ⟨hname, hdescription⟩ := hchange r hshows.name hshows.description
      rw [if_pos hsame]
      refine ⟨e', by rw [hid, hsame, DeckMap.put_self], hname, hdescription, ?_, ?_⟩
      · rw [hhistory]
        exact hshows.inTime
      · rw [hhistory, hid]
        exact hshows.history
    · rw [if_neg hsame]
      exact ⟨e₀, (DeckMap.put_ne hsame).trans he₀, hshows⟩
  · intro other hother
    rw [Tables.hasDeck_mapDeck hid] at hother
    rw [DeckMap.put_ne (h.ne_of_entry he hother)]
    exact h.others other hother

/-- Rows of cards and sets do not touch the decks. -/
theorem of_grows (h : t.Shows ss m) (hgrows : t.Grows t') : t'.Shows ss m := by
  refine hgrows.preserves (P := fun t => t.Shows ss m) (fun t t' hstep h => ?_) h
  have hstores := h.stores.of_grows (.single hstep)
  cases hstep with
  | label s r _ _ => cases s <;> exact ⟨hstores, h.entries, h.others⟩
  | _ => exact ⟨hstores, h.entries, h.others⟩

/-! ## Reading -/

/-- A timely deck is read as its entry has it. -/
theorem deck (h : t.Shows ss m) (he : m id = some e) (htimely : e.Timely) :
    ∃ d, t.deck id = .ok d ∧ d.Shows id e := by
  obtain ⟨r, hr, rfl, hshows⟩ := h.row_of_entry he
  have hread := h.stores.deck hr
  have hperm : (((snapshotsOf ss r.id).map Snapshot.state).map DeckInstance.saved).Perm
      e.history := by
    rw [List.map_map]
    exact ((snapshotsOf_perm ss r.id).map _).trans hshows.history.symm
  have hordered : Deck.areOrdered ((snapshotsOf ss r.id).map Snapshot.state) = true := by
    rw [Deck.areOrdered_iff]
    obtain ⟨floating, hall⟩ := htimely.alike
    exact ⟨floating, fun i hi => hall i.saved (hperm.mem_iff.1 (List.mem_map_of_mem hi))⟩
  rw [Deck.ofParts_of_named (h.stores.named r hr) (by simpa using h.stores.snapshotsOf_ne_nil hr),
    if_pos hordered] at hread
  refine ⟨_, hread, rfl, by rw [hshows.name], by rw [hshows.description], ?_⟩
  -- both are in order of time, which different moments leave no choice about
  have hsorted : ((Deck.inOrder ((snapshotsOf ss r.id).map Snapshot.state)).map
      DeckInstance.saved).Pairwise SavedState.NotLater :=
    List.pairwise_map.2 (Deck.pairwise_inOrder _)
  have hsame := ((Deck.inOrder_perm _).map DeckInstance.saved).trans hperm
  exact hsame.eq_of_pairwise
    (fun a b ha hb hab hba => List.inj_on_of_nodup_map htimely.distinct (hsame.mem_iff.1 ha) hb
      (Int.le_antisymm hab hba)) hsorted hshows.inTime

/-- A deck that is not there is not read. -/
theorem deck_of_none (h : t.Shows ss m) (hword : inWord id = true) (hnone : m id = none) :
    t.deck id = .error (.deck (.unknownDeck (toString id))) :=
  Tables.deck_of_unknown hword (h.hasDeck_of_none hnone)

/-- The decks are listed by their ids. -/
theorem deckNames_pairwise (h : t.Shows ss m) : t.deckNames.Pairwise fun a b => a.1 < b.1 := by
  have hsorted := pairwise_mergeSort_le Prod.fst (t.decks.map fun r => (r.id, r.name))
  have hids : (t.deckNames.map Prod.fst).Nodup := by
    have hperm := (List.mergeSort_perm (t.decks.map fun r => (r.id, r.name))
      fun a b => decide (a.1 ≤ b.1)).map Prod.fst
    rw [List.map_map] at hperm
    exact hperm.nodup_iff.2 h.stores.ids_nodup
  refine (hsorted.and (List.pairwise_map.1 hids)).imp ?_
  intro a b hab
  exact lt_of_le_of_ne hab.1 hab.2

theorem mem_deckNames_iff (h : t.Shows ss m) {name : String} :
    (id, name) ∈ t.deckNames ↔ ∃ e, m id = some e ∧ e.name = name := by
  rw [Tables.mem_deckNames]
  constructor
  · rintro ⟨r, hr, rfl, rfl⟩
    obtain ⟨e, he, hshows⟩ := h.entries r hr
    exact ⟨e, he, hshows.name⟩
  · rintro ⟨e, he, rfl⟩
    obtain ⟨r, hr, hid, hshows⟩ := h.row_of_entry he
    exact ⟨r, hr, hid, hshows.name.symm⟩

end Tables.Shows

end CardArchive
