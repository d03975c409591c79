import CardArchive.Proofs.Deck.Stored

/-!
# Reading stored decks

A stored deck is read from its row and from the rows of its instances, and everything is
checked again as if it were new. The checks that were made of each instance when it was
stored imply those that are made of each instance when it is read. The one check that
concerns several instances at once is that their moments can be compared, and no call that
adds a single instance makes it.

## What this module delivers

* `Stores.deck`: what is read of a stored deck.
* `Stores.deck_of_mixed`: a deck with moments that can not be compared is not read.
* `Stores.deck_of_not_mixed`, `deck_of_unknown`, `deck_of_outsideWord`: the other ids.
* `deck_of_listed`: every listed deck can be read exactly if its moments can be compared.
* `mixedCalls`: two accepted calls after which they can not.
-/

set_option autoImplicit false

namespace CardArchive

/-- The snapshots of a deck, in the order of the texts of their moments. -/
def snapshotsOf (ss : List Snapshot) (id : Int) : List Snapshot :=
  Text.sortedBy Snapshot.creation (ss.filter fun s => s.deck == id)

theorem snapshotsOf_perm (ss : List Snapshot) (id : Int) :
    (snapshotsOf ss id).Perm (ss.filter fun s => s.deck == id) :=
  List.mergeSort_perm _ _

theorem mem_snapshotsOf {ss : List Snapshot} {id : Int} {s : Snapshot} :
    s ∈ snapshotsOf ss id ↔ s ∈ ss ∧ s.deck = id := by
  rw [(snapshotsOf_perm ss id).mem_iff, List.mem_filter, beq_iff_eq]

theorem Tables.mem_deckNames {t : Tables} {id : Int} {name : String} :
    (id, name) ∈ t.deckNames ↔ ∃ r ∈ t.decks, r.id = id ∧ r.name = name := by
  rw [deckNames, List.mem_mergeSort, List.mem_map]
  simp only [Prod.mk.injEq]

/-- A named deck with a history passes its checks if its moments can be compared. -/
theorem Deck.ofParts_of_named {deckId : Option Int} {name description : String}
    {history : List DeckInstance} (hname : name ≠ "") (hhistory : history ≠ []) :
    ofParts deckId (.text name) (.text description) history =
      if areOrdered history then
        .ok ⟨deckId, .text name, .text description, inOrder history⟩
      else .error (.shape (.unordered "datetime.datetime" "datetime.datetime")) := by
  have htruthy : (Value.text name).truthy = true := by simpa [Value.truthy] using hname
  have hgiven : history.isEmpty = false := by simpa using hhistory
  simp [ofParts, htruthy, hgiven, Value.isNull]

/-- A stored deck is read from its row and its snapshots. -/
theorem Tables.Stores.deck {t : Tables} {ss : List Snapshot} (h : t.Stores ss) {r : DeckRow}
    (hr : r ∈ t.decks) :
    t.deck r.id =
      Deck.ofParts (some r.id) (.text r.name) (.text r.description)
        ((snapshotsOf ss r.id).map Snapshot.state) := by
  have hrow : t.decks.find? (fun d => d.id == r.id) = some r := by
    rw [← List.head?_filter, filter_key h.ids_nodup hr]
    rfl
  have hread : t.deckInstances r.id (t.creations r.id) =
      .ok ((snapshotsOf ss r.id).map Snapshot.state) := by
    rw [h.holds.creations]
    exact h.holds.deckInstances fun s hs => mem_snapshotsOf.1 hs
  rw [Tables.deck, stored_integer (h.ids_inWord r hr), ok_bind, hrow, hread]
  rfl

/-- A stored deck has a history. -/
theorem Tables.Stores.snapshotsOf_ne_nil {t : Tables} {ss : List Snapshot} (h : t.Stores ss)
    {r : DeckRow} (hr : r ∈ t.decks) : snapshotsOf ss r.id ≠ [] := by
  obtain ⟨s, hs, hdeck⟩ := h.started r hr
  exact List.ne_nil_of_mem (mem_snapshotsOf.2 ⟨hs, hdeck⟩)

/-! ## Moments that can not be compared -/

/-- The row of a snapshot tells its moment. -/
theorem Snapshot.moment_of_row {s : Snapshot} {id : Int} {text : String} {m : Timestamp}
    (h : s.row = ⟨id, text⟩) (hm : Timestamp.ofText? text = some m) :
    s.deck = id ∧ s.state.creation = m := by
  obtain ⟨hdeck, htext⟩ := InstanceRow.mk.inj h
  refine ⟨hdeck, ?_⟩
  rw [← htext, s.ofText?_creation] at hm
  exact Option.some.inj hm

/-- A deck with rows for moments that can not be compared is not read. -/
theorem Tables.Stores.deck_of_mixed {t : Tables} {ss : List Snapshot} (h : t.Stores ss)
    {r : DeckRow} (hr : r ∈ t.decks) {a b : String} {ma mb : Timestamp}
    (ha : (⟨r.id, a⟩ : InstanceRow) ∈ t.instances) (hma : Timestamp.ofText? a = some ma)
    (hb : (⟨r.id, b⟩ : InstanceRow) ∈ t.instances) (hmb : Timestamp.ofText? b = some mb)
    (hmixed : ma.isFloating ≠ mb.isFloating) :
    t.deck r.id = .error (.shape (.unordered "datetime.datetime" "datetime.datetime")) := by
  have hmoment : ∀ {text : String} {m : Timestamp}, (⟨r.id, text⟩ : InstanceRow) ∈ t.instances →
      Timestamp.ofText? text = some m →
      ∃ i ∈ (snapshotsOf ss r.id).map Snapshot.state, i.creation = m := by
    intro text m hrow hm
    rw [h.holds.instances] at hrow
    obtain ⟨s, hs, hsrow⟩ := List.mem_map.1 hrow
    obtain ⟨hdeck, hcreation⟩ := Snapshot.moment_of_row hsrow hm
    exact ⟨s.state, List.mem_map.2 ⟨s, mem_snapshotsOf.2 ⟨hs, hdeck⟩, rfl⟩, hcreation⟩
  obtain ⟨i, hi, hia⟩ := hmoment ha hma
  obtain ⟨j, hj, hjb⟩ := hmoment hb hmb
  have hread := h.deck hr
  have hnonempty := h.snapshotsOf_ne_nil hr
  rw [Deck.ofParts_of_named (h.named r hr) (by simpa using hnonempty), if_neg] at hread
  · exact hread
  · rw [Deck.areOrdered_iff]
    rintro ⟨floating, hall⟩
    apply hmixed
    rw [← hia, ← hjb, hall i hi, hall j hj]

/-- A deck has rows for a floating moment and for one with an offset. -/
def Tables.Mixed (t : Tables) (id : Int) : Prop :=
  ∃ a b ma mb, (⟨id, a⟩ : InstanceRow) ∈ t.instances ∧ Timestamp.ofText? a = some ma ∧
    (⟨id, b⟩ : InstanceRow) ∈ t.instances ∧ Timestamp.ofText? b = some mb ∧
    ma.isFloating ≠ mb.isFloating

/-- A snapshot has a row that tells its moment. -/
theorem Tables.Stores.row_of_mem {t : Tables} {ss : List Snapshot} (h : t.Stores ss)
    {s : Snapshot} (hs : s ∈ ss) : ∃ text, (⟨s.deck, text⟩ : InstanceRow) ∈ t.instances ∧
      Timestamp.ofText? text = some s.state.creation := by
  refine ⟨s.creation, ?_, s.ofText?_creation⟩
  rw [h.holds.instances]
  exact List.mem_map.2 ⟨s, hs, rfl⟩

/-- Any other deck that is stored is read. -/
theorem Tables.Stores.deck_of_not_mixed {t : Tables} {ss : List Snapshot} (h : t.Stores ss)
    {r : DeckRow} (hr : r ∈ t.decks) (hmixed : ¬t.Mixed r.id) : ∃ d, t.deck r.id = .ok d := by
  have hread := h.deck hr
  have hnonempty := h.snapshotsOf_ne_nil hr
  rw [Deck.ofParts_of_named (h.named r hr) (by simpa using hnonempty), if_pos] at hread
  · exact ⟨_, hread⟩
  · -- the moment of any snapshot tells the kind of all of them
    obtain ⟨s, hs⟩ := List.exists_mem_of_ne_nil _ hnonempty
    rw [Deck.areOrdered_iff]
    refine ⟨s.state.creation.isFloating, List.forall_mem_map.2 fun s' hs' => ?_⟩
    obtain ⟨hmem, hdeck⟩ := mem_snapshotsOf.1 hs
    obtain ⟨hmem', hdeck'⟩ := mem_snapshotsOf.1 hs'
    obtain ⟨a, ha, hma⟩ := h.row_of_mem hmem'
    obtain ⟨b, hb, hmb⟩ := h.row_of_mem hmem
    rw [hdeck'] at ha
    rw [hdeck] at hb
    by_contra hne
    exact hmixed ⟨a, b, _, _, ha, hma, hb, hmb, hne⟩

/-! ## Ids that are not in use -/

/-- The row of a moment belongs to a stored deck. -/
theorem Tables.Stores.hasDeck_of_row {t : Tables} {ss : List Snapshot} (h : t.Stores ss)
    {r : InstanceRow} (hr : r ∈ t.instances) : t.hasDeck r.deck = true := by
  rw [h.holds.instances] at hr
  obtain ⟨s, hs, rfl⟩ := List.mem_map.1 hr
  exact h.owned s hs

theorem Tables.deck_of_unknown {t : Tables} {id : Int} (hword : inWord id = true)
    (h : t.hasDeck id = false) : t.deck id = .error (.deck (.unknownDeck (toString id))) := by
  have hnone : t.decks.find? (fun d => d.id == id) = none := by
    simpa [Tables.hasDeck] using h
  rw [Tables.deck, stored_integer hword, ok_bind, hnone]
  rfl

theorem Tables.deck_of_outsideWord {t : Tables} {id : Int} (h : inWord id = false) :
    t.deck id = .error (.storage .outsideWord) := by
  rw [Tables.deck, storedInteger, if_neg (by simp [h])]
  rfl

/-! ## Every listed deck -/

/-- An instance without cards. -/
def emptyInstance (deckId : Option Int) (creation : Timestamp) : DeckInstance :=
  ⟨deckId, creation, [], []⟩

theorem emptyInstance_checked (deckId : Option Int) {creation : Timestamp}
    (h : creation.isValid = true) : (emptyInstance deckId creation).Checked := by
  refine ⟨h, List.nodup_nil, ?_, List.nodup_nil, ?_, ?_⟩
  all_goals
    intro x hx
    cases hx

/-- A deck of one instance without cards, made at a moment that floats. -/
def floatingDeck : Deck :=
  ⟨none, .text "Affinity", .text "", [emptyInstance none ⟨2024, 1, 1, 0, 0, 0, 0, none, false⟩]⟩

theorem floatingDeck_checked : floatingDeck.Checked := by
  refine ⟨rfl, rfl, List.cons_ne_nil _ _, rfl, ?_⟩
  rw [floatingDeck, List.forall_mem_singleton]
  exact emptyInstance_checked none (by decide)

/-- A deck is added, and then an instance of it whose moment has an offset. -/
def mixedCalls : List StoreCall :=
  [.addDeck ⟨floatingDeck, floatingDeck_checked⟩,
    .updateDeck ⟨emptyInstance (some 1) ⟨2024, 1, 2, 0, 0, 0, 0, some 0, false⟩,
      emptyInstance_checked (some 1) (by decide)⟩]

/-- After any calls, a deck that is listed can be read exactly if its moments can be
compared, which means that all of them have an offset or none has. If so, it is read with
its name and with an instance for each of its moments, in order of time; if not, the
comparison of the moments is what fails. -/
theorem deck_of_listed (calls : List StoreCall) {id : Int} {name : String}
    (h : (id, name) ∈ (Database.ran calls).tables.deckNames) :
    ∃ moments : List Timestamp, moments ≠ [] ∧ (∀ m ∈ moments, m.isValid = true) ∧
      (Database.ran calls).tables.creations id = moments.map Timestamp.text ∧
      ((∃ floating, ∀ m ∈ moments, m.isFloating = floating) →
        ∃ d, (Database.ran calls).tables.deck id = .ok d ∧ d.deckId = some id ∧
          d.name = .text name ∧ (d.history.map DeckInstance.creation).Perm moments ∧
          d.history.Pairwise Deck.Older) ∧
      ((¬∃ floating, ∀ m ∈ moments, m.isFloating = floating) →
        (Database.ran calls).tables.deck id =
          .error (.shape (.unordered "datetime.datetime" "datetime.datetime"))) := by
  obtain ⟨ss, hstores⟩ := Database.stores_ran calls
  obtain ⟨r, hr, rfl, rfl⟩ := Tables.mem_deckNames.1 h
  have hnonempty := hstores.snapshotsOf_ne_nil hr
  have hread := hstores.deck hr
  rw [Deck.ofParts_of_named (hstores.named r hr) (by simpa using hnonempty)] at hread
  have hordered : Deck.areOrdered ((snapshotsOf ss r.id).map Snapshot.state) = true ↔
      ∃ floating, ∀ m ∈ (snapshotsOf ss r.id).map fun s => s.state.creation,
        m.isFloating = floating := by
    simp only [Deck.areOrdered_iff, List.forall_mem_map]
  refine ⟨(snapshotsOf ss r.id).map fun s => s.state.creation, by simpa using hnonempty, ?_, ?_,
    ?_, ?_⟩
  · rw [List.forall_mem_map]
    exact fun s _ => s.checked.valid
  · rw [hstores.holds.creations, List.map_map]
    rfl
  · intro hsame
    rw [if_pos (hordered.2 hsame)] at hread
    refine ⟨_, hread, rfl, rfl, ?_, Deck.pairwise_inOrder _⟩
    have hperm := (Deck.inOrder_perm ((snapshotsOf ss r.id).map Snapshot.state)).map
      DeckInstance.creation
    rwa [List.map_map] at hperm
  · intro hmixed
    rwa [if_neg (mt hordered.1 hmixed)] at hread

theorem deck_of_listed_floating :
    (1, "Affinity") ∈ (Database.ran (mixedCalls.take 1)).tables.deckNames ∧
      ∃ d, (Database.ran (mixedCalls.take 1)).tables.deck 1 = .ok d ∧ d.name = .text "Affinity" := by
  have hlisted : (1, "Affinity") ∈ (Database.ran (mixedCalls.take 1)).tables.deckNames := by
    decide +kernel
  have htexts : (Database.ran (mixedCalls.take 1)).tables.creations 1 = ["2024-01-01T00:00:00"] := by
    decide +kernel
  obtain ⟨moments, -, -, hcreations, hsame, -⟩ := deck_of_listed (mixedCalls.take 1) hlisted
  rw [htexts] at hcreations
  -- a single moment is comparable with itself
  obtain ⟨m, rfl⟩ : ∃ m, moments = [m] := by
    rw [← List.length_eq_one_iff, ← List.length_map (f := Timestamp.text), ← hcreations]
    rfl
  obtain ⟨d, hd, -, hname, -⟩ := hsame ⟨m.isFloating, by simp⟩
  exact ⟨hlisted, d, hd, hname⟩

/-- Both calls are accepted and the deck is listed, but it can not be read: its moments can
not be compared. -/
theorem mixedCalls_unreadable :
    Database.empty.answers mixedCalls = [.id 1, .done] ∧
      (1, "Affinity") ∈ (Database.ran mixedCalls).tables.deckNames ∧
      ∀ d, (Database.ran mixedCalls).tables.deck 1 ≠ .ok d := by
  refine ⟨rfl, by decide +kernel, ?_⟩
  obtain ⟨ss, hstores⟩ := Database.stores_ran mixedCalls
  have hrow : (⟨1, "Affinity", ""⟩ : DeckRow) ∈ (Database.ran mixedCalls).tables.decks := by
    decide +kernel
  have hfloating : (⟨1, "2024-01-01T00:00:00"⟩ : InstanceRow) ∈
      (Database.ran mixedCalls).tables.instances := by decide +kernel
  have hoffset : (⟨1, "2024-01-02T00:00:00+00:00"⟩ : InstanceRow) ∈
      (Database.ran mixedCalls).tables.instances := by decide +kernel
  have hfirst : Timestamp.ofText? "2024-01-01T00:00:00" =
      some ⟨2024, 1, 1, 0, 0, 0, 0, none, false⟩ := by decide +kernel
  have hsecond : Timestamp.ofText? "2024-01-02T00:00:00+00:00" =
      some ⟨2024, 1, 2, 0, 0, 0, 0, some 0, false⟩ := by decide +kernel
  have hread := hstores.deck_of_mixed hrow hfloating hfirst hoffset hsecond (by decide)
  intro d hd
  rw [hread] at hd
  cases hd

end CardArchive
