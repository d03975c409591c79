import CardArchive.Proofs.Deck.Snapshots
import CardArchive.Proofs.Store.Calls

/-!
# Stored decks

Beside the rows of their instances the decks have rows of their own. Every stored deck has
an id that no other has, a name and at least one instance, and no instance is left of a
deck that is gone. This survives every call, whatever its arguments are and whether it
succeeds or not.

## What this module delivers

* `hasDeck_freeId`, `hasDeck_of_freeId`: the id for a deck without one.
* `Tables.Stores`: the decks and their snapshots.
* `Stores.addDeck`, `Stores.addInstance`, `Stores.withoutDeck`, `Stores.mapDeck`: what the
  changes of decks make of them.
* `Reaches` and `call_reaches`: what one call can do to the tables.
* `stores_ran`: the decks after any calls.
-/

set_option autoImplicit false

namespace CardArchive

/-! ## Names -/

theorem Number.write_ne_nil (layout : Number.Layout) (d : Number.Digits) :
    layout.write d ≠ [] := by
  simp only [Number.Layout.write]
  split
  · simp
  · split
    · unfold Number.plain
      split
      · simp
      · split <;> simp
    · simp [Number.scientific]

theorem Number.withSign_ne_empty (negative : Bool) {cs : List Char} (h : cs ≠ []) :
    Number.withSign negative cs ≠ "" := by
  unfold Number.withSign
  cases negative <;> simp [h]

theorem toString_ne_empty (n : Int) : toString n ≠ "" := by
  cases n with
  | ofNat m => exact Nat.repr_ne_empty
  | negSucc m =>
    change "-" ++ Nat.repr (m + 1) ≠ ""
    simp

/-- What counts as given is not stored as an empty text. -/
theorem storedText_ne_empty {v : Value} {position : Nat} {s : String} (hv : v.truthy = true)
    (h : storedText position v = .ok (some s)) : s ≠ "" := by
  cases v with
  | null => cases hv
  | bool b =>
    obtain rfl := Option.some.inj (Except.ok.inj h)
    cases b <;> decide
  | int n =>
    obtain ⟨m, -, hm⟩ := map_eq_ok.1 h
    obtain rfl := Option.some.inj hm
    exact toString_ne_empty m
  | float x =>
    have hkept : Number.kept x = some s := Except.ok.inj h
    unfold Number.kept at hkept
    split at hkept
    · obtain rfl := Option.some.inj hkept
      exact Number.withSign_ne_empty _ (Number.write_ne_nil _ _)
    · obtain rfl := Option.some.inj hkept
      exact Number.withSign_ne_empty _ (by decide)
    · cases hkept
  | text s' =>
    obtain rfl := Option.some.inj (Except.ok.inj h)
    simpa [Value.truthy] using hv
  | decimal d => cases h
  | list xs => cases h
  | object fs => cases h

/-! ## Ids in use -/

namespace Tables

section HasDeck

variable {t t' : Tables} {id : Int}

theorem hasDeck_iff : t.hasDeck id = true ↔ id ∈ t.decks.map DeckRow.id := by
  rw [hasDeck, List.any_eq_true, List.mem_map]
  simp only [beq_iff_eq]

theorem hasDeck_of_mem {r : DeckRow} (h : r ∈ t.decks) : t.hasDeck r.id = true :=
  hasDeck_iff.2 (List.mem_map_of_mem h)

theorem hasDeck_congr (h : t'.decks = t.decks) (id : Int) : t'.hasDeck id = t.hasDeck id := by
  rw [hasDeck, hasDeck, h]

theorem hasDeck_append {r : DeckRow} (h : t'.decks = t.decks ++ [r]) (id : Int) :
    t'.hasDeck id = (t.hasDeck id || r.id == id) := by
  rw [hasDeck, hasDeck, h, List.any_append, List.any_cons, List.any_nil, Bool.or_false]

/-- Removing a deck leaves the other ids in use. -/
theorem hasDeck_withoutDeck_ne {other : Int} (h : other ≠ id) :
    (t.withoutDeck id).hasDeck other = t.hasDeck other := by
  rw [Bool.eq_iff_iff, hasDeck_iff, hasDeck_iff, List.mem_map, List.mem_map]
  constructor
  · rintro ⟨r, hr, rfl⟩
    exact ⟨r, (List.mem_filter.1 hr).1, rfl⟩
  · rintro ⟨r, hr, rfl⟩
    exact ⟨r, List.mem_filter.2 ⟨hr, by simpa using h⟩, rfl⟩

/-- A change of a deck that keeps its id leaves all ids as they are. -/
theorem map_id_mapDeck {change : DeckRow → DeckRow} (hid : ∀ r, (change r).id = r.id) :
    (t.mapDeck id change).decks.map DeckRow.id = t.decks.map DeckRow.id := by
  rw [mapDeck, List.map_map]
  refine List.map_congr_left fun r _ => ?_
  rw [Function.comp_apply]
  split
  · exact hid r
  · rfl

theorem hasDeck_mapDeck {change : DeckRow → DeckRow} (hid : ∀ r, (change r).id = r.id)
    (other : Int) : (t.mapDeck id change).hasDeck other = t.hasDeck other := by
  rw [Bool.eq_iff_iff, hasDeck_iff, hasDeck_iff, map_id_mapDeck hid]

end HasDeck

/-! ## Free ids -/

/-- The id for a deck without one is not in use. -/
theorem hasDeck_freeId (t : Tables) : t.hasDeck t.freeId = false := by
  rw [Bool.eq_false_iff, ne_eq, hasDeck_iff]
  unfold freeId
  split
  · rename_i hmax
    rw [List.max?_eq_none_iff] at hmax
    simp [hmax]
  · rename_i n hmax
    -- nothing is larger than the largest id
    have hlarge : n + 1 ∉ t.decks.map DeckRow.id := by
      intro hmem
      have hle := (List.max?_eq_some_iff.1 hmax).2 _ hmem
      omega
    split
    · exact hlarge
    · cases hfound : t.candidateIds.find? fun id => !t.hasDeck id with
      | none => exact hlarge
      | some id =>
        have hfree := List.find?_some hfound
        rw [← hasDeck_iff]
        simpa using hfree

/-- If the id for a deck without one can not be stored, every positive id is in use. -/
theorem hasDeck_of_freeId {t : Tables} (h : inWord t.freeId = false) {id : Int} (hpos : 0 < id)
    (hid : inWord id = true) : t.hasDeck id = true := by
  unfold freeId at h
  split at h
  · cases h
  · rename_i n hmax
    split at h
    · rename_i hnext
      rw [hnext] at h
      cases h
    · cases hfound : t.candidateIds.find? fun id => !t.hasDeck id with
      | none =>
        -- there are more candidates than decks
        have hused : t.candidateIds ⊆ t.decks.map DeckRow.id := by
          intro c hc
          rw [← hasDeck_iff]
          simpa using List.find?_eq_none.1 hfound c hc
        have hdistinct : t.candidateIds.Nodup := by
          refine List.Nodup.map ?_ List.nodup_range
          intro a b hab
          simpa using hab
        have hle := (hdistinct.subperm hused).length_le
        simp [candidateIds] at hle
      | some c =>
        rw [hfound, Option.getD_some] at h
        rw [candidateIds, List.find?_map] at hfound
        obtain ⟨i, hi, rfl⟩ := Option.map_eq_some_iff.1 hfound
        obtain ⟨-, -, hbefore⟩ := List.find?_range_eq_some.1 hi
        simp only [inWord, Bool.and_eq_true, decide_eq_true_eq] at h hid
        have hlarge : (9223372036854775808 : Int) ≤ i + 1 := by
          by_contra hsmall
          simp at h
          omega
        have hused := hbefore (id - 1).toNat (by omega)
        have hsame : ((id - 1).toNat : Int) + 1 = id := by omega
        simp only [Function.comp_apply, hsame, Bool.not_not] at hused
        exact hused

/-- An id that can be stored is the one asked for, if it is free. -/
theorem newId_eq_ok {t : Tables} {id : Int} {asked : Option Int} (h : t.newId asked = .ok id) :
    inWord id = true ∧ t.hasDeck id = false ∧ ∀ n ∈ asked, n = id := by
  cases asked with
  | none =>
    obtain ⟨hid, rfl⟩ := storedInteger_eq_ok.1 (stored_eq_ok.1 h)
    exact ⟨hid, t.hasDeck_freeId, by simp⟩
  | some n =>
    obtain ⟨m, hm, h⟩ := bind_eq_ok.1 h
    obtain ⟨hid, rfl⟩ := storedInteger_eq_ok.1 (stored_eq_ok.1 hm)
    obtain ⟨hfree, h⟩ := refuse_eq_ok.1 h
    obtain rfl := pure_eq_ok.1 h
    exact ⟨hid, Bool.eq_false_iff.2 hfree, by simp⟩

theorem required_eq_ok {column : String} {text : Option String} {s : String}
    (h : required column text = .ok s) : text = some s := by
  cases text with
  | none => cases h
  | some s' => rw [Except.ok.inj h]

end Tables

/-! ## Decks and their snapshots -/

/-- The tables hold decks and their snapshots: every deck has an id of its own, a name and a
snapshot, and every snapshot has its deck. -/
structure Tables.Stores (t : Tables) (ss : List Snapshot) : Prop where
  holds : t.Holds ss
  ids_nodup : (t.decks.map DeckRow.id).Nodup
  ids_inWord : ∀ r ∈ t.decks, inWord r.id = true
  named : ∀ r ∈ t.decks, r.name ≠ ""
  owned : ∀ s ∈ ss, t.hasDeck s.deck = true
  started : ∀ r ∈ t.decks, ∃ s ∈ ss, s.deck = r.id

namespace Tables.Stores

variable {t t' : Tables} {ss : List Snapshot} {id : Int}

theorem empty : Tables.empty.Stores [] := by
  refine ⟨⟨rfl, rfl, rfl, rfl, List.nodup_nil⟩, List.nodup_nil, ?_, ?_, ?_, ?_⟩
  all_goals
    intro x hx
    cases hx

/-- A deck that is added has its row and its snapshots, in the order of its history, at the
end. -/
theorem addDeck (h : t.Stores ss) {d : Deck} (hd : d.Checked)
    (hadded : t.addDeck d = .ok (t', id)) :
    ∃ name description, ∃ new : List Snapshot, t.newId d.deckId = .ok id ∧
      storedText 2 d.name = .ok (some name) ∧
      storedText 3 d.description = .ok (some description) ∧
      t'.decks = t.decks ++ [⟨id, name, description⟩] ∧ (∀ s ∈ new, s.deck = id) ∧
      new.map Snapshot.state = d.history.map (DeckInstance.kept id) ∧ t'.Stores (ss ++ new) := by
  unfold Tables.addDeck at hadded
  obtain ⟨n, hn, hadded⟩ := bind_eq_ok.1 hadded
  obtain ⟨name?, hname, hadded⟩ := bind_eq_ok.1 hadded
  obtain ⟨description?, hdescription, hadded⟩ := bind_eq_ok.1 hadded
  obtain ⟨name, hname', hadded⟩ := bind_eq_ok.1 hadded
  obtain ⟨description, hdescription', hadded⟩ := bind_eq_ok.1 hadded
  obtain ⟨t'', ht, hadded⟩ := bind_eq_ok.1 hadded
  obtain ⟨rfl, rfl⟩ := Prod.mk.inj (pure_eq_ok.1 hadded)
  rw [required_eq_ok hname'] at hname
  rw [required_eq_ok hdescription'] at hdescription
  obtain ⟨hword, hfree, -⟩ := newId_eq_ok hn
  -- the row of the deck is there first, and the instances follow
  obtain ⟨new, hnew, hstates, hholds, hdecks⟩ :=
    (h.holds.addRow ⟨n, name, description⟩).addInstances hd.checked ht
  have hhas := Tables.hasDeck_append hdecks
  refine ⟨name, description, new, hn, stored_eq_ok.1 hname, stored_eq_ok.1 hdescription, hdecks,
    hnew, hstates, hholds, ?_, ?_, ?_, ?_, ?_⟩
  · rw [hdecks, List.map_append]
    refine h.ids_nodup.append (List.nodup_singleton _) (List.disjoint_singleton.2 ?_)
    intro hmem
    rw [← Tables.hasDeck_iff, hfree] at hmem
    cases hmem
  · rw [hdecks]
    exact List.forall_mem_append.2 ⟨h.ids_inWord, List.forall_mem_singleton.2 hword⟩
  · rw [hdecks]
    exact List.forall_mem_append.2 ⟨h.named, List.forall_mem_singleton.2
      (storedText_ne_empty hd.named (stored_eq_ok.1 hname))⟩
  · rw [List.forall_mem_append]
    refine ⟨fun s hs => by rw [hhas, h.owned s hs, Bool.true_or], fun s hs => ?_⟩
    rw [hhas, hnew s hs, beq_self_eq_true, Bool.or_true]
  · rw [hdecks, List.forall_mem_append, List.forall_mem_singleton]
    refine ⟨fun r hr => ?_, ?_⟩
    · obtain ⟨s, hs, hdeck⟩ := h.started r hr
      exact ⟨s, List.mem_append_left _ hs, hdeck⟩
    · -- the first instance of the history is among the new snapshots
      cases new with
      | nil =>
        rw [List.map_nil] at hstates
        exact absurd (List.map_eq_nil_iff.1 hstates.symm) hd.nonempty
      | cons s rest => exact ⟨s, by simp, hnew s List.mem_cons_self⟩

/-- An instance that is added to a stored deck is its last snapshot. -/
theorem addInstance (h : t.Stores ss) (hdeck : t.hasDeck id = true) {i : DeckInstance}
    (hi : i.Checked) (hadded : t.addInstance id i = .ok t') :
    ∃ s : Snapshot, s.deck = id ∧ s.state = i.kept id ∧ t'.Stores (ss ++ [s]) ∧
      t'.decks = t.decks := by
  obtain ⟨s, hs, hstate, hholds, hdecks⟩ := h.holds.addInstance hi hadded
  have hhas := Tables.hasDeck_congr hdecks
  refine ⟨s, hs, hstate, ⟨hholds, ?_, ?_, ?_, ?_, ?_⟩, hdecks⟩
  · rw [hdecks]
    exact h.ids_nodup
  · rw [hdecks]
    exact h.ids_inWord
  · rw [hdecks]
    exact h.named
  · rw [List.forall_mem_append, List.forall_mem_singleton]
    exact ⟨fun x hx => by rw [hhas, h.owned x hx], by rw [hhas, hs, hdeck]⟩
  · rw [hdecks]
    intro r hr
    obtain ⟨x, hx, hxdeck⟩ := h.started r hr
    exact ⟨x, List.mem_append_left _ hx, hxdeck⟩

/-- A deck that is removed takes its snapshots with it, and no other. -/
theorem withoutDeck (h : t.Stores ss) (id : Int) :
    (t.withoutDeck id).Stores (ss.filter fun s => s.deck != id) := by
  refine ⟨h.holds.withoutDeck id, ?_, ?_, ?_, ?_, ?_⟩
  · exact h.ids_nodup.sublist (List.filter_sublist.map _)
  · exact fun r hr => h.ids_inWord r (List.mem_filter.1 hr).1
  · exact fun r hr => h.named r (List.mem_filter.1 hr).1
  · intro s hs
    obtain ⟨hs, hne⟩ := List.mem_filter.1 hs
    rw [Tables.hasDeck_withoutDeck_ne (by simpa using hne)]
    exact h.owned s hs
  · intro r hr
    obtain ⟨hr, hne⟩ := List.mem_filter.1 hr
    obtain ⟨s, hs, hdeck⟩ := h.started r hr
    exact ⟨s, List.mem_filter.2 ⟨hs, by rw [hdeck]; exact hne⟩, hdeck⟩

/-- A change of the texts of a deck leaves all snapshots as they are. -/
theorem mapDeck (h : t.Stores ss) {change : DeckRow → DeckRow} (hid : ∀ r, (change r).id = r.id)
    (hnamed : ∀ r ∈ t.decks, (change r).name ≠ "") : (t.mapDeck id change).Stores ss := by
  have hrow : ∀ r ∈ (t.mapDeck id change).decks, ∃ r' ∈ t.decks, r.id = r'.id ∧ r.name ≠ "" := by
    intro r hr
    obtain ⟨r', hr', rfl⟩ := List.mem_map.1 hr
    refine ⟨r', hr', ?_⟩
    split
    · exact ⟨hid r', hnamed r' hr'⟩
    · exact ⟨rfl, h.named r' hr'⟩
  refine ⟨h.holds.of_same rfl rfl rfl rfl, ?_, ?_, ?_, ?_, ?_⟩
  · rw [Tables.map_id_mapDeck hid]
    exact h.ids_nodup
  · intro r hr
    obtain ⟨r', hr', hsame, -⟩ := hrow r hr
    rw [hsame]
    exact h.ids_inWord r' hr'
  · intro r hr
    obtain ⟨-, -, -, hname⟩ := hrow r hr
    exact hname
  · intro s hs
    rw [Tables.hasDeck_mapDeck hid]
    exact h.owned s hs
  · intro r hr
    obtain ⟨r', hr', hsame, -⟩ := hrow r hr
    rw [hsame]
    exact h.started r' hr'

/-- Only the tables of decks count. -/
theorem of_same (h : t.Stores ss) (hdecks : t'.decks = t.decks) (hholds : t'.Holds ss) :
    t'.Stores ss := by
  refine ⟨hholds, ?_, ?_, ?_, ?_, ?_⟩
  · rw [hdecks]
    exact h.ids_nodup
  · rw [hdecks]
    exact h.ids_inWord
  · rw [hdecks]
    exact h.named
  · intro s hs
    rw [Tables.hasDeck_congr hdecks, h.owned s hs]
  · rw [hdecks]
    exact h.started

/-- Rows of cards and sets do not touch the decks. -/
theorem of_grows (h : t.Stores ss) (hgrows : t.Grows t') : t'.Stores ss := by
  refine hgrows.preserves (P := fun t => t.Stores ss) (fun t t' hstep h => ?_) h
  cases hstep with
  | label s r _ _ => cases s <;> exact h.of_same rfl (h.holds.of_same rfl rfl rfl rfl)
  | _ => exact h.of_same rfl (h.holds.of_same rfl rfl rfl rfl)

end Tables.Stores

/-! ## Calls -/

/-- What one call can do to the tables. -/
inductive Tables.Reaches (t : Tables) : Tables → Prop
  | same : Reaches t t
  | rows {t' : Tables} (hgrows : t.Grows t') : Reaches t t'
  | deck {t' : Tables} {d : Deck} {id : Int} (hd : d.Checked)
      (hadded : t.addDeck d = .ok (t', id)) : Reaches t t'
  | entry {t' : Tables} {id : Int} {i : DeckInstance} (hdeck : t.hasDeck id = true)
      (hi : i.Checked) (hadded : t.addInstance id i = .ok t') : Reaches t t'
  | removal (id : Int) : Reaches t (t.withoutDeck id)
  | text (id : Int) (put : DeckRow → DeckRow) (hid : ∀ r, (put r).id = r.id)
      (hname : ∀ r, r.name ≠ "" → (put r).name ≠ "") : Reaches t (t.mapDeck id put)

theorem Tables.Reaches.of_eq {t t' t'' : Tables} (h : Reaches t t') (hsame : t'' = t') :
    Reaches t t'' :=
  hsame ▸ h

/-- Decks and their snapshots become others, whatever is done to the tables. -/
theorem Tables.Stores.of_reaches {t t' : Tables} {ss : List Snapshot} (h : t.Stores ss)
    (hreaches : t.Reaches t') : ∃ ss', t'.Stores ss' := by
  cases hreaches with
  | same => exact ⟨ss, h⟩
  | rows hgrows => exact ⟨ss, h.of_grows hgrows⟩
  | deck hd hadded =>
    obtain ⟨_, _, new, -, -, -, -, -, -, hstores⟩ := h.addDeck hd hadded
    exact ⟨ss ++ new, hstores⟩
  | entry hdeck hi hadded =>
    obtain ⟨s, -, -, hstores, -⟩ := h.addInstance hdeck hi hadded
    exact ⟨ss ++ [s], hstores⟩
  | removal id => exact ⟨_, h.withoutDeck id⟩
  | text id put hid hname => exact ⟨ss, h.mapDeck hid fun r hr => hname r (h.named r hr)⟩

namespace Database

/-- The deck that an instance belongs to is stored. -/
theorem ownerOf_eq_ok {t : Tables} {i : DeckInstance} {id : Int} (h : ownerOf t i = .ok id) :
    i.deckId = some id ∧ inWord id = true ∧ t.hasDeck id = true := by
  unfold ownerOf at h
  split at h
  · cases h
  · rename_i n hn
    obtain ⟨m, hm, h⟩ := bind_eq_ok.1 h
    obtain ⟨hword, rfl⟩ := storedInteger_eq_ok.1 (stored_eq_ok.1 hm)
    split at h
    · rename_i hdeck
      obtain rfl := pure_eq_ok.1 h
      exact ⟨hn, hword, hdeck⟩
    · exact absurd h throw_ne_ok

/-- A text that is put into a deck is one that the value is stored as. -/
theorem setText_cases (db : Database) (id : Int) (column : String) (value : Value)
    (put : String → DeckRow → DeckRow) :
    (db.setText id column value put).1.tables = db.tables ∨
      ∃ n s, storedText 1 value = .ok (some s) ∧
        (db.setText id column value put).1.tables = db.tables.mapDeck n (put s) := by
  unfold setText
  split
  · exact .inl rfl
  · rename_i text htext
    rcases db.change_cases (stored (storedInteger id)) (fun id => do
      let s ← Tables.required column text
      pure (db.tables.mapDeck id (put s))) with h | ⟨n, t, hwork, h⟩
    · exact .inl h
    · obtain ⟨s, hs, hwork⟩ := bind_eq_ok.1 hwork
      obtain rfl := pure_eq_ok.1 hwork
      rw [Tables.required_eq_ok hs] at htext
      exact .inr ⟨n, s, stored_eq_ok.1 htext, h⟩

/-- A call changes the tables in one of these ways. -/
theorem call_reaches (db : Database) (c : StoreCall) :
    db.tables.Reaches (db.call c).1.tables := by
  cases c with
  | insertSet set =>
    rcases db.insertSet_cases set with hsame | ⟨name, n, t, -, hset, hsame⟩
    · exact .of_eq .same hsame
    · exact .of_eq (.rows (Tables.addSet_grows hset)) hsame
  | getCard name => exact .same
  | addDeck d =>
    rcases db.transact_cases (fun t => t.addDeck d.1) with hsame | ⟨t, id, hwork, hsame⟩
    · exact .of_eq .same hsame
    · exact .of_eq (.deck d.2 hwork) hsame
  | updateDeck i =>
    change db.tables.Reaches (db.updateDeck i.1).1.tables
    unfold updateDeck
    split
    · exact .same
    · rename_i id hid
      rcases db.transact_cases (fun t => (t.addInstance id i.1).map fun t => (t, ())) with
        hsame | ⟨t, u, hwork, hsame⟩
      · exact .of_eq .same hsame
      · obtain ⟨t', hadded, ht⟩ := map_eq_ok.1 hwork
        cases ht
        exact .of_eq (.entry (ownerOf_eq_ok hid).2.2 i.2 hadded) hsame
  | deleteDeck id =>
    rcases db.change_cases (stored (storedInteger id)) (fun id => .ok (db.tables.withoutDeck id))
      with hsame | ⟨n, t, hwork, hsame⟩
    · exact .of_eq .same hsame
    · obtain rfl := Except.ok.inj hwork
      exact .of_eq (.removal n) hsame
  | renameDeck id name =>
    change db.tables.Reaches (db.renameDeck id name).1.tables
    unfold renameDeck
    split
    · exact .same
    · rename_i hname
      rcases db.setText_cases id "name" name fun s r => { r with name := s } with
        hsame | ⟨n, s, hs, hsame⟩
      · exact .of_eq .same hsame
      · have hnonempty := storedText_ne_empty (by simpa using hname) hs
        refine .of_eq ?_ hsame
        exact .text n (fun r => { r with name := s }) (fun _ => rfl) fun _ _ => hnonempty
  | describeDeck id description =>
    change db.tables.Reaches (db.describeDeck id description).1.tables
    unfold describeDeck
    split
    · exact .same
    · rcases db.setText_cases id "description" description
        fun s r => { r with description := s } with hsame | ⟨n, s, hs, hsame⟩
      · exact .of_eq .same hsame
      · exact .of_eq (.text n (fun r => { r with description := s }) (fun _ => rfl) fun _ hr => hr)
          hsame
  | getDeck id => exact .same
  | getDecks => exact .same

/-- Every call leaves a database of decks and their snapshots. -/
theorem stores_call (db : Database) (c : StoreCall) (h : ∃ ss, db.tables.Stores ss) :
    ∃ ss, (db.call c).1.tables.Stores ss := by
  obtain ⟨ss, h⟩ := h
  exact h.of_reaches (db.call_reaches c)

/-- After any calls the tables hold decks and their snapshots. -/
theorem stores_ran (calls : List StoreCall) : ∃ ss, (ran calls).tables.Stores ss :=
  ran_induction ⟨[], .empty⟩ stores_call calls

end Database

end CardArchive
