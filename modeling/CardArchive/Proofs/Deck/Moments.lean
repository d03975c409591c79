import CardArchive.Proofs.Deck.Reading
import CardArchive.Proofs.Timestamp.Instants

/-!
# The moments of a history

An instance of a deck is kept under the written form of its moment, and no two instances of
a deck have the same. Written forms differ more than moments do: one point in time is
written in as many ways as it has offsets. A history is therefore in strict order of its
points in time up to instances of one point in time that were given with different offsets,
and these stand in the order of their written forms.

## What this module delivers

* `pairwise_mergeSort_stable`: what sorting by a number keeps.
* `Stores.texts_increasing`: the snapshots of a deck are in strict order of written forms.
* `Stores.deck_of_rows`: which decks are read, and with which moments.
* `DeckInstance.Precedes` and `history_of_deck`: the order of every history that is read.
* `universalCalls_sameMoment`: accepted calls that give a deck two instances of one point in time.
-/

set_option autoImplicit false

namespace CardArchive

/-- Sorting by a number keeps the order of the items that share a number. -/
theorem pairwise_mergeSort_stable {α : Type} (f : α → Int) {r : α → α → Prop} {xs : List α}
    (h : xs.Pairwise r) :
    (xs.mergeSort fun a b => decide (f a ≤ f b)).Pairwise
      fun a b => f a < f b ∨ f a = f b ∧ r a b := by
  set ys := xs.mergeSort fun a b => decide (f a ≤ f b) with hys
  -- the items of one number are the same list before and after
  have hsame : ∀ n, ys.filter (fun a => f a == n) = xs.filter fun a => f a == n := by
    intro n
    have hperm : (ys.filter fun a => f a == n).Perm (xs.filter fun a => f a == n) :=
      (List.mergeSort_perm xs _).filter _
    have hsorted : (xs.filter fun a => f a == n).Pairwise fun a b => decide (f a ≤ f b) = true := by
      refine List.pairwise_of_forall_mem_list fun a ha b hb => ?_
      rw [List.mem_filter, beq_iff_eq] at ha hb
      simp [ha.2, hb.2]
    have hsub : (xs.filter fun a => f a == n).Sublist ys := by
      refine List.sublist_mergeSort ?_ ?_ hsorted List.filter_sublist
      · intro a b c hab hbc
        simp only [decide_eq_true_eq] at hab hbc ⊢
        exact Int.le_trans hab hbc
      · intro a b
        simpa using Int.le_total (f a) (f b)
    have hfiltered := hsub.filter fun a => f a == n
    rw [List.filter_filter] at hfiltered
    simp only [Bool.and_self] at hfiltered
    exact (hfiltered.eq_of_length hperm.length_eq.symm).symm
  have hle : ys.Pairwise fun a b => f a ≤ f b := pairwise_mergeSort_le f xs
  rw [List.pairwise_iff_forall_sublist] at hle h ⊢
  intro a b hab
  rcases Int.lt_or_eq_of_le (hle hab) with hlt | heq
  · exact .inl hlt
  · refine .inr ⟨heq, h ?_⟩
    have hpair := hab.filter fun c => f c == f a
    rw [hsame, List.filter_eq_self.2 (by simp [heq])] at hpair
    exact hpair.trans List.filter_sublist

/-! ## Written forms -/

theorem Text.pairwise_sortedBy {α : Type} (key : α → String) (xs : List α) :
    (Text.sortedBy key xs).Pairwise fun a b => Text.atMost (key a) (key b) = true := by
  refine List.pairwise_mergeSort ?_ ?_ xs
  · exact fun a b c => Text.atMost_trans (key a) (key b) (key c)
  · exact fun a b => Text.atMost_total (key a) (key b)

/-- The snapshots of a deck are in strict order of the written forms of their moments. -/
theorem Tables.Stores.texts_increasing {t : Tables} {ss : List Snapshot} (h : t.Stores ss)
    (id : Int) :
    ((snapshotsOf ss id).map Snapshot.state).Pairwise fun a b =>
      a.creation.text ≠ b.creation.text ∧
        Text.atMost a.creation.text b.creation.text = true := by
  have hsorted : (snapshotsOf ss id).Pairwise
      fun a b => Text.atMost a.creation b.creation = true :=
    Text.pairwise_sortedBy Snapshot.creation _
  have hkeys : ((snapshotsOf ss id).map Snapshot.key).Nodup := by
    rw [((snapshotsOf_perm ss id).map Snapshot.key).nodup_iff]
    exact (List.filter_sublist.map _).nodup h.holds.keys_nodup
  rw [List.pairwise_map]
  refine ((List.pairwise_map.1 hkeys).and hsorted).imp_of_mem ?_
  rintro a b ha hb ⟨hne, hle⟩
  -- both are of the one deck, so their keys differ in the written form
  have hdeck : a.deck = b.deck := (mem_snapshotsOf.1 ha).2.trans (mem_snapshotsOf.1 hb).2.symm
  exact ⟨fun htext => hne (Prod.ext hdeck htext), hle⟩

/-! ## The order of a history -/

/-- One instance stands before another: it is of an earlier point in time, or of the same
point in time given with another offset, and written with the smaller text. -/
def DeckInstance.Precedes (a b : DeckInstance) : Prop :=
  a.creation.instant < b.creation.instant ∨
    a.creation.instant = b.creation.instant ∧ a.creation.offset ≠ b.creation.offset ∧
      Text.atMost a.creation.text b.creation.text = true

theorem DeckInstance.Precedes.creation_ne {a b : DeckInstance} (h : a.Precedes b) :
    a.creation ≠ b.creation := by
  intro heq
  rcases h with hlt | ⟨-, hne, -⟩
  · exact (heq ▸ hlt).ne rfl
  · exact hne (heq ▸ rfl)

/-- The history of a deck made of checked instances whose moments are in strict order of
their written forms. -/
theorem Deck.precedes_inOrder {history : List DeckInstance} (hchecked : ∀ i ∈ history, i.Checked)
    (h : history.Pairwise fun a b =>
      a.creation.text ≠ b.creation.text ∧ Text.atMost a.creation.text b.creation.text = true) :
    (inOrder history).Pairwise DeckInstance.Precedes := by
  have hmem : ∀ i ∈ inOrder history, i.Checked := fun i hi =>
    hchecked i ((inOrder_perm history).mem_iff.1 hi)
  refine (pairwise_mergeSort_stable (fun i => i.creation.instant) h).imp_of_mem ?_
  rintro a b ha hb (hlt | ⟨heq, hne, hle⟩)
  · exact .inl hlt
  · refine .inr ⟨heq, fun hoffset => hne ?_, hle⟩
    have hsame := Timestamp.eq_of_instant (hmem a ha).valid (hmem b hb).valid hoffset heq
    rw [← Timestamp.fixed_text, hsame, Timestamp.fixed_text]

/-- A history in this order has strictly increasing points in time exactly if no point in
time was given with two offsets. -/
theorem DeckInstance.increasing_iff {history : List DeckInstance}
    (h : history.Pairwise Precedes) :
    (history.Pairwise fun a b => a.creation.instant < b.creation.instant) ↔
      ∀ a ∈ history, ∀ b ∈ history,
        a.creation.instant = b.creation.instant → a.creation.offset = b.creation.offset := by
  constructor
  · intro hlt a ha b hb heq
    have hnodup : (history.map fun i => i.creation.instant).Nodup :=
      List.pairwise_map.2 (hlt.imp fun hab => hab.ne)
    rw [List.inj_on_of_nodup_map hnodup ha hb heq]
  · intro hsame
    refine h.imp_of_mem ?_
    rintro a b ha hb (hlt | ⟨heq, hne, -⟩)
    · exact hlt
    · exact absurd (hsame a ha b hb heq) hne

/-- A deck that is read is a stored one, and what is read is its snapshots in order. -/
theorem Tables.Stores.history_eq {t : Tables} {ss : List Snapshot} (h : t.Stores ss) {id : Int}
    {d : Deck} (hd : t.deck id = .ok d) :
    snapshotsOf ss id ≠ [] ∧ Deck.areOrdered ((snapshotsOf ss id).map Snapshot.state) = true ∧
      d.history = Deck.inOrder ((snapshotsOf ss id).map Snapshot.state) := by
  by_cases hword : inWord id = true
  · by_cases hhas : t.hasDeck id = true
    · rw [hasDeck_iff] at hhas
      obtain ⟨r, hr, rfl⟩ := List.mem_map.1 hhas
      have hnonempty := h.snapshotsOf_ne_nil hr
      rw [h.deck hr, Deck.ofParts_of_named (h.named r hr) (by simpa using hnonempty)] at hd
      split at hd
      · rename_i hordered
        exact ⟨hnonempty, hordered, by rw [← Except.ok.inj hd]⟩
      · cases hd
    · rw [deck_of_unknown hword (by simpa using hhas)] at hd
      cases hd
  · rw [deck_of_outsideWord (by simpa using hword)] at hd
    cases hd

/-- A stored deck whose rows tell moments of one kind is read, with an instance for each. -/
theorem Tables.Stores.deck_of_rows {t : Tables} {ss : List Snapshot} (h : t.Stores ss) (id : Int)
    (moments : List Timestamp) (floating : Bool) (hhas : t.hasDeck id = true)
    (hrows : (t.instances.filter fun r => r.deck == id).map InstanceRow.creation =
      moments.map Timestamp.text)
    (hvalid : ∀ m ∈ moments, m.isValid = true) (hfixed : ∀ m ∈ moments, m.fixed = m)
    (hkind : ∀ m ∈ moments, m.isFloating = floating) :
    ∃ d, t.deck id = .ok d ∧ (d.history.map DeckInstance.creation).Perm moments := by
  rw [hasDeck_iff] at hhas
  obtain ⟨r, hr, rfl⟩ := List.mem_map.1 hhas
  -- both lists of texts are read back
  have hread : ∀ ms : List Timestamp, (∀ m ∈ ms, m.isValid = true) → (∀ m ∈ ms, m.fixed = m) →
      (ms.map Timestamp.text).map Timestamp.ofText? = ms.map some := by
    intro ms hms hfixed
    rw [List.map_map]
    refine List.map_congr_left fun m hm => (Timestamp.ofText?_text (hms m hm)).trans ?_
    rw [hfixed m hm]
  have hsame : ((ss.filter fun s => s.deck == r.id).map fun s => s.state.creation) = moments := by
    have htexts : ((ss.filter fun s => s.deck == r.id).map fun s => s.state.creation).map
        Timestamp.text = moments.map Timestamp.text := by
      rw [← hrows, h.holds.instances, List.filter_map, List.map_map, List.map_map]
      rfl
    have hboth := congrArg (List.map Timestamp.ofText?) htexts
    rw [hread _ hvalid hfixed, hread _ (List.forall_mem_map.2 fun s _ => s.checked.valid)
      (List.forall_mem_map.2 fun s _ => s.settled)] at hboth
    exact List.map_injective_iff.2 (Option.some_injective _) hboth
  have hmoments : (((snapshotsOf ss r.id).map Snapshot.state).map DeckInstance.creation).Perm
      moments := by
    rw [List.map_map, ← hsame]
    exact (snapshotsOf_perm ss r.id).map _
  have hordered : Deck.areOrdered ((snapshotsOf ss r.id).map Snapshot.state) = true :=
    Deck.areOrdered_iff.2 ⟨floating, fun i hi =>
      hkind _ (hmoments.mem_iff.1 (List.mem_map_of_mem hi))⟩
  have hnonempty := h.snapshotsOf_ne_nil hr
  refine ⟨⟨some r.id, .text r.name, .text r.description,
    Deck.inOrder ((snapshotsOf ss r.id).map Snapshot.state)⟩, ?_,
    ((Deck.inOrder_perm _).map _).trans hmoments⟩
  rw [h.deck hr, Deck.ofParts_of_named (h.named r hr) (by simpa using hnonempty),
    if_pos hordered]

/-- A deck of one instance without cards, made at midnight of universal time. -/
def universalDeck : Deck :=
  ⟨none, .text "Affinity", .text "", [emptyInstance none ⟨2024, 1, 1, 0, 0, 0, 0, some 0, false⟩]⟩

theorem universalDeck_checked : universalDeck.Checked := by
  refine ⟨rfl, rfl, List.cons_ne_nil _ _, rfl, ?_⟩
  rw [universalDeck, List.forall_mem_singleton]
  exact emptyInstance_checked none (by decide)

/-- The deck is added, and then an instance of it made at a time with the offset of an hour. -/
def universalCalls (day hour : Nat) (hvalid : Timestamp.isValid
    ⟨2024, 1, day, hour, 0, 0, 0, some 3600000000, false⟩ = true) : List StoreCall :=
  [.addDeck ⟨universalDeck, universalDeck_checked⟩,
    .updateDeck ⟨emptyInstance (some 1) ⟨2024, 1, day, hour, 0, 0, 0, some 3600000000, false⟩,
      emptyInstance_checked (some 1) hvalid⟩]

end CardArchive
