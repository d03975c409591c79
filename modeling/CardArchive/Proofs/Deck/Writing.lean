import CardArchive.Proofs.Deck.Map
import CardArchive.Proofs.Deck.Stored

/-!
# Writing decks

A deck or an instance whose values can be stored as they are is written, unless something
else stands against it: its moment or its id is taken, or one of its printings is not
stored. Each function that writes is described by the outcomes that it can have, with what
has to be the case for each of them.

## What this module delivers

* `DeckInstance.saved_kept`: a plain instance is stored as it is.
* `checkPrintings_cases`, `addQuantities_of_fresh`: the parts of writing an instance.
* `Holds.addInstance_cases`, `Holds.addInstances_cases`: the outcomes for instances.
* `Tables.newId_cases`, `Stores.addDeck_cases`: the outcomes for a deck.
-/

set_option autoImplicit false

namespace CardArchive

/-! ## Plain instances -/

theorem valueOf?_map {κ α β : Type} [DecidableEq κ] (f : α → β) (key : κ) (pairs : List (κ × α)) :
    valueOf? key (pairs.map fun p => (p.1, f p.2)) = (valueOf? key pairs).map f := by
  induction pairs with
  | nil => rfl
  | cons p rest ih =>
    rw [List.map_cons, valueOf?, valueOf?, ih]
    split <;> rfl

theorem Printing.kept_of_text {p : Printing} {s : String} (h : p.number = .text s) :
    p.kept = p := by
  rw [Printing.kept, h]
  exact (congrArg (Printing.mk p.card p.set) h).symm

namespace DeckInstance

theorem Plain.quantities_kept {i : DeckInstance} (h : i.Plain) :
    i.quantities.map (fun q => (q.1.kept, q.2)) = i.quantities := by
  conv_rhs => rw [← List.map_id i.quantities]
  refine List.map_congr_left fun q hq => ?_
  obtain ⟨s, hs⟩ := (h q hq).1
  rw [Printing.kept_of_text hs, id]

/-- A plain instance is stored as it is. -/
theorem saved_kept {i : DeckInstance} (h : i.Plain) (id : Int) :
    (i.kept id).saved = (i.ofDeck id).saved := by
  refine SavedState.ext rfl rfl ?_ ?_
  · funext category
    change (valueOf? category (i.categories.map fun c => (c.1, Text.sorted c.2))).map _ =
      (valueOf? category i.categories).map _
    rw [valueOf?_map, Option.map_map]
    -- putting the cards in order does not change which they are
    refine congrArg (fun f => (valueOf? category i.categories).map f) (funext fun cards => ?_)
    exact List.toFinset_eq_of_perm _ _ (List.mergeSort_perm cards Text.atMost)
  · funext p
    exact congrArg (valueOf? p) h.quantities_kept

end DeckInstance

namespace Tables

/-- Whether a printing is stored. -/
def Knows (t : Tables) (p : Printing) : Prop := t.hasPrinting p.card p.set p.number.written = true

/-- The failure that a printing causes that is not stored. -/
def unknown (p : Printing) : Failure := .deck (.unknownPrinting p.card p.set p.number.shown)

/-! ## The parts of an instance -/

/-- Printings with texts for numbers pass if all of them are stored; otherwise one that is
not causes the failure. -/
theorem checkPrintings_cases (t : Tables) {quantities : List (Printing × Int)}
    (htexts : ∀ q ∈ quantities, ∃ s, q.1.number = .text s) :
    ((∀ q ∈ quantities, t.Knows q.1) ∧ t.checkPrintings quantities = .ok ()) ∨
      ∃ q ∈ quantities, ¬t.Knows q.1 ∧ t.checkPrintings quantities = .error (unknown q.1) := by
  induction quantities with
  | nil => exact .inl ⟨by simp, rfl⟩
  | cons q rest ih =>
    obtain ⟨⟨s, hs⟩, hrest⟩ := List.forall_mem_cons.1 htexts
    have hnumber : stored (storedNumber q.1.number) = .ok q.1.number.written := by rw [hs]; rfl
    by_cases hknown : t.Knows q.1
    · have hnext : t.checkPrintings (q :: rest) = t.checkPrintings rest := by
        rw [checkPrintings, hnumber, ok_bind, if_neg (by simpa [Knows] using hknown)]
      rcases ih hrest with ⟨hall, hok⟩ | ⟨q', hq', hunknown, herror⟩
      · exact .inl ⟨List.forall_mem_cons.2 ⟨hknown, hall⟩, hnext.trans hok⟩
      · exact .inr ⟨q', List.mem_cons_of_mem _ hq', hunknown, hnext.trans herror⟩
    · refine .inr ⟨q, List.mem_cons_self, hknown, ?_⟩
      rw [checkPrintings, hnumber, ok_bind, if_pos (by simpa [Knows] using hknown)]
      rfl

/-- Quantities of different printings are added if none of them had one before. -/
theorem addQuantities_of_fresh {id : Int} {creation : String} {rows : List QuantityRow}
    {quantities : List (Printing × Int)}
    (hplain : ∀ q ∈ quantities, (∃ s, q.1.number = .text s) ∧ inWord q.2 = true)
    (hdistinct : (quantities.map Prod.fst).Nodup)
    (hfresh : ∀ q ∈ quantities,
      rows.any (sameQuantity (Snapshot.quantityRow id creation q)) = false) :
    ∃ result, addQuantities id creation rows quantities = .ok result := by
  induction quantities generalizing rows with
  | nil => exact ⟨rows, rfl⟩
  | cons q rest ih =>
    obtain ⟨⟨⟨s, hs⟩, hword⟩, hplain⟩ := List.forall_mem_cons.1 hplain
    obtain ⟨hfirst, hfresh⟩ := List.forall_mem_cons.1 hfresh
    rw [List.map_cons, List.nodup_cons] at hdistinct
    have hnumber : storedNumber q.1.number = .ok q.1.number.written := by rw [hs]; rfl
    have hquantity : storedInteger q.2 = .ok q.2 := storedInteger_eq_ok.2 ⟨hword, rfl⟩
    -- the row of the first quantity is in the way of no later one
    have hrest : ∀ q' ∈ rest, (rows ++ [Snapshot.quantityRow id creation q]).any
        (sameQuantity (Snapshot.quantityRow id creation q')) = false := by
      intro q' hq'
      rw [List.any_append, hfresh q' hq', Bool.false_or, List.any_eq_false]
      intro r hr hclash
      rw [List.mem_singleton.1 hr, sameQuantity_iff] at hclash
      obtain ⟨⟨s', hs'⟩, -⟩ := hplain q' hq'
      rw [Printing.kept_of_text hs', Printing.kept_of_text hs] at hclash
      exact hdistinct.1 (List.mem_map.2 ⟨q', hq', hclash⟩)
    obtain ⟨result, hresult⟩ := ih hplain hdistinct.2 hrest
    refine ⟨result, ?_⟩
    rw [addQuantities, hnumber, ok_bind, hquantity, ok_bind]
    exact (if_neg (Bool.eq_false_iff.1 hfirst)).trans hresult

/-! ## Instances -/

theorem addInstance_of_taken {t : Tables} {id : Int} {i : DeckInstance}
    (h : t.hasInstance id i.creation.text = true) :
    t.addInstance id i = .error (.deck (.creationTaken (toString id) i.creation.text)) := by
  unfold addInstance
  rw [if_pos h]
  rfl

theorem knows_of_cardPart {t t' : Tables} (h : t'.cardPart = t.cardPart) : t'.Knows = t.Knows := by
  funext p
  rw [Knows, Knows, hasPrinting, hasPrinting, printings_of_cardPart h]

namespace Holds

variable {t : Tables} {ss : List Snapshot} {id : Int}

/-- A moment of which a deck has no instance has no quantities either. -/
theorem no_quantities (h : t.Holds ss) {creation : String}
    (hfresh : t.hasInstance id creation = false) (q : Printing × Int) :
    t.quantities.any (sameQuantity (Snapshot.quantityRow id creation q)) = false := by
  rw [h.quantities, List.any_eq_false]
  intro r hr hclash
  obtain ⟨s, hs, hr⟩ := List.mem_flatMap.1 hr
  obtain ⟨q', -, rfl⟩ := List.mem_map.1 hr
  -- a clash would be with a snapshot of that moment
  have hkey : s.key = (id, creation) := by
    simp only [sameQuantity, Snapshot.quantityRow, Bool.and_eq_true, beq_iff_eq] at hclash
    exact Prod.ext hclash.1.1.1.1.symm hclash.1.1.1.2.symm
  have htaken := h.hasInstance_iff.2 (List.mem_map.2 ⟨s, hs, hkey⟩)
  rw [hfresh] at htaken
  cases htaken

/-- A plain instance of a new moment is added if all its printings are stored. -/
theorem addInstance_cases (h : t.Holds ss) {i : DeckInstance} (hi : i.Checked) (hplain : i.Plain)
    (hfresh : t.hasInstance id i.creation.text = false) :
    (i.UsesOnly t.Knows ∧ ∃ t', t.addInstance id i = .ok t') ∨
      ∃ q ∈ i.quantities, ¬t.Knows q.1 ∧ t.addInstance id i = .error (unknown q.1) := by
  have hbegin : t.addInstance id i = (do
      t.checkPrintings i.quantities
      let quantities ← stored (addQuantities id i.creation.text t.quantities i.quantities)
      pure { t with
        instances := t.instances ++ [⟨id, i.creation.text⟩]
        categories := t.categories ++ i.categories.map fun c => ⟨id, i.creation.text, c.1⟩
        members := t.members ++ memberRows id i.creation.text i.categories
        quantities := quantities }) := by
    unfold Tables.addInstance
    exact if_neg (Bool.eq_false_iff.1 hfresh)
  rcases t.checkPrintings_cases (fun q hq => (hplain q hq).1) with
    ⟨hknown, hok⟩ | ⟨q, hq, hunknown, herror⟩
  · obtain ⟨rows, hrows⟩ := addQuantities_of_fresh hplain hi.printings_nodup
      (fun q _ => h.no_quantities hfresh q)
    refine .inl ⟨hknown, ?_⟩
    rw [hbegin, hok, ok_bind, stored_eq_ok.2 hrows, ok_bind]
    exact ⟨_, rfl⟩
  · refine .inr ⟨q, hq, hunknown, ?_⟩
    rw [hbegin, herror]
    rfl

/-- Plain instances of different new moments are added if all their printings are stored. -/
theorem addInstances_cases {is : List DeckInstance} (h : t.Holds ss)
    (hchecked : ∀ i ∈ is, i.Checked) (hplain : ∀ i ∈ is, i.Plain)
    (hdistinct : is.Pairwise fun a b => a.creation.text ≠ b.creation.text)
    (hfresh : ∀ i ∈ is, t.hasInstance id i.creation.text = false) :
    ((∀ i ∈ is, i.UsesOnly t.Knows) ∧ ∃ t', t.addInstances id is = .ok t') ∨
      ∃ i ∈ is, ∃ q ∈ i.quantities, ¬t.Knows q.1 ∧
        t.addInstances id is = .error (unknown q.1) := by
  induction is generalizing t ss with
  | nil => exact .inl ⟨by simp, t, rfl⟩
  | cons i rest ih =>
    obtain ⟨hi, hchecked⟩ := List.forall_mem_cons.1 hchecked
    obtain ⟨hiplain, hplain⟩ := List.forall_mem_cons.1 hplain
    obtain ⟨hifresh, hfresh⟩ := List.forall_mem_cons.1 hfresh
    obtain ⟨hidistinct, hdistinct⟩ := List.pairwise_cons.1 hdistinct
    rcases h.addInstance_cases hi hiplain hifresh with
      ⟨hknown, mid, hmid⟩ | ⟨q, hq, hunknown, herror⟩
    · obtain ⟨s, hdeck, hstate, hholds, -⟩ := h.addInstance hi hmid
      have hknows : mid.Knows = t.Knows := knows_of_cardPart (addInstance_cardPart hmid)
      have hnext : t.addInstances id (i :: rest) = mid.addInstances id rest := by
        rw [Tables.addInstances, hmid, ok_bind]
      -- the only moment that is new in between is that of the first instance
      have hmidfresh : ∀ j ∈ rest, mid.hasInstance id j.creation.text = false := by
        intro j hj
        rw [Bool.eq_false_iff, ne_eq, hholds.hasInstance_iff, List.map_append, List.mem_append,
          ← h.hasInstance_iff, hfresh j hj]
        rintro (hold | hnew)
        · cases hold
        · have htext := (Prod.mk.inj (List.mem_singleton.1 hnew)).2
          rw [Snapshot.creation, hstate] at htext
          exact hidistinct j hj htext.symm
      rcases ih hholds hchecked hplain hdistinct hmidfresh with
        ⟨hall, t', ht'⟩ | ⟨j, hj, q, hq, hunknown, herror⟩
      · rw [hknows] at hall
        exact .inl ⟨List.forall_mem_cons.2 ⟨hknown, hall⟩, t', hnext.trans ht'⟩
      · rw [hknows] at hunknown
        exact .inr ⟨j, List.mem_cons_of_mem _ hj, q, hq, hunknown, hnext.trans herror⟩
    · refine .inr ⟨i, List.mem_cons_self, q, hq, hunknown, ?_⟩
      rw [Tables.addInstances, herror]
      rfl

end Holds

/-! ## Decks -/

/-- An id that can be stored is given to a deck if it is free, and a deck without one is
given a free one. -/
theorem newId_cases (t : Tables) {asked : Option Int} (hword : ∀ n ∈ asked, inWord n = true) :
    (∃ id, t.newId asked = .ok id) ∨
      (∃ id, asked = some id ∧ t.hasDeck id = true ∧
        t.newId asked = .error (.deck (.idTaken id))) ∨
      (asked = none ∧ inWord t.freeId = false ∧
        t.newId asked = .error (.storage .outsideWord)) := by
  cases asked with
  | none =>
    cases hfree : inWord t.freeId with
    | true =>
      exact .inl ⟨t.freeId, stored_integer hfree⟩
    | false =>
      refine .inr (.inr ⟨rfl, rfl, ?_⟩)
      rw [newId, storedInteger, hfree]
      rfl
  | some n =>
    have hstored := stored_integer (hword n rfl)
    cases hdeck : t.hasDeck n with
    | true =>
      refine .inr (.inl ⟨n, rfl, hdeck, ?_⟩)
      rw [newId, hstored, ok_bind, if_pos hdeck]
      rfl
    | false =>
      refine .inl ⟨n, ?_⟩
      rw [newId, hstored, ok_bind, if_neg (Bool.eq_false_iff.1 hdeck)]
      rfl

namespace Stores

variable {t : Tables} {ss : List Snapshot} {id : Int}

/-- A deck that is not stored has no instances. -/
theorem hasInstance_of_free (h : t.Stores ss) (hfree : t.hasDeck id = false) (creation : String) :
    t.hasInstance id creation = false := by
  rw [Bool.eq_false_iff, ne_eq, h.holds.hasInstance_iff]
  intro hmem
  obtain ⟨s, hs, hkey⟩ := List.mem_map.1 hmem
  have howned := h.owned s hs
  rw [(Prod.mk.inj hkey).1, hfree] at howned
  cases howned

/-- A plain deck that was given an id is added if all its printings are stored. -/
theorem addDeck_cases (h : t.Stores ss) {d : Deck} (hd : d.Checked) {name description : String}
    (hname : d.name = .text name) (hdescription : d.description = .text description)
    (hplain : ∀ i ∈ d.history, i.Plain)
    (hdistinct : (d.history.map fun i => i.creation.instant).Nodup)
    (hid : t.newId d.deckId = .ok id) :
    ((∀ i ∈ d.history, i.UsesOnly t.Knows) ∧ ∃ t', t.addDeck d = .ok (t', id)) ∨
      ∃ i ∈ d.history, ∃ q ∈ i.quantities, ¬t.Knows q.1 ∧
        t.addDeck d = .error (unknown q.1) := by
  obtain ⟨-, hfree, -⟩ := newId_eq_ok hid
  have hbegin : t.addDeck d =
      (addInstances { t with decks := t.decks ++ [⟨id, name, description⟩] } id d.history).bind
        fun t => .ok (t, id) := by
    rw [Tables.addDeck, hid, hname, hdescription]
    rfl
  -- moments with the same text would be the same moment
  have htexts : d.history.Pairwise fun a b => a.creation.text ≠ b.creation.text := by
    refine (List.pairwise_map.1 hdistinct).imp_of_mem fun ha hb hne htext => hne ?_
    have hsame := Timestamp.text_injective (hd.checked _ ha).valid (hd.checked _ hb).valid htext
    rw [← Timestamp.fixed_instant, hsame, Timestamp.fixed_instant]
  rcases (h.holds.addRow ⟨id, name, description⟩).addInstances_cases hd.checked hplain htexts
    (fun i _ => h.hasInstance_of_free hfree i.creation.text) with
    ⟨hknown, t', ht'⟩ | ⟨i, hi, q, hq, hunknown, herror⟩
  · refine .inl ⟨hknown, t', ?_⟩
    rw [hbegin, ht']
    rfl
  · refine .inr ⟨i, hi, q, hq, hunknown, ?_⟩
    rw [hbegin, herror]
    rfl

end Stores

end Tables

end CardArchive
