import CardArchive.Proofs.Deck.Instances
import CardArchive.Proofs.Timestamp.ReadBack
import CardArchive.Store.Database

/-!
# Instances in the tables

An instance of a deck is spread over four tables, and the rows of many instances of many
decks lie there one after the other. The tables are described by the list of all stored
instances, in the order in which they were added: each table is the rows of the first of
them, then those of the second, and so on. Adding an instance appends to that list, and
removing a deck strikes its instances from it.

## What this module delivers

* `DeckInstance.kept`: an instance in the form in which it is stored.
* `Snapshot`: a stored instance, with its rows.
* `Tables.Holds`: the tables hold exactly the rows of some snapshots.
* `Holds.addInstance`, `Holds.addInstances`, `Holds.withoutDeck`: the changes of the list.
* `Holds.deckInstance`, `Holds.creations`: what is read of the snapshots.
-/

set_option autoImplicit false

namespace CardArchive

/-! ## Stored instances -/

/-- The text of a number. -/
def PrintingNumber.written : PrintingNumber → String
  | .text s => s
  | .integer n => toString n

/-- The printing with the text of its number. -/
def Printing.kept (p : Printing) : Printing := { p with number := .text p.number.written }

/-- The instance as it is stored: of a deck, with a fixed offset, with the cards of each
category in order and with texts for the numbers of printings. -/
def DeckInstance.kept (id : Int) (i : DeckInstance) : DeckInstance :=
  { deckId := some id
    creation := i.creation.fixed
    categories := i.categories.map fun c => (c.1, Text.sorted c.2)
    quantities := i.quantities.map fun q => (q.1.kept, q.2) }

/-- An instance that is stored for a deck. -/
structure Snapshot where
  deck : Int
  state : DeckInstance
  owned : state.deckId = some deck
  checked : state.Checked
  settled : state.creation.fixed = state.creation
  texts : ∀ q ∈ state.quantities, q.1.kept = q.1

namespace Snapshot

/-- The text of the moment. -/
def creation (s : Snapshot) : String := s.state.creation.text

/-- The text tells the moment. -/
theorem ofText?_creation (s : Snapshot) :
    Timestamp.ofText? s.creation = some s.state.creation := by
  rw [creation, Timestamp.ofText?_text s.checked.valid, s.settled]

/-- What identifies a snapshot. -/
def key (s : Snapshot) : Int × String := (s.deck, s.creation)

/-- The row of the snapshot itself. -/
def row (s : Snapshot) : InstanceRow := ⟨s.deck, s.creation⟩

/-- The rows of its categories. -/
def categoryRows (s : Snapshot) : List DeckCategoryRow :=
  s.state.categories.map fun c => ⟨s.deck, s.creation, c.1⟩

/-- The rows of the cards in its categories. -/
def memberRows (s : Snapshot) : List MemberRow :=
  s.state.categories.flatMap fun c => c.2.map fun card => ⟨s.deck, s.creation, card, c.1⟩

/-- The row of a quantity. -/
def quantityRow (id : Int) (creation : String) (q : Printing × Int) : QuantityRow :=
  ⟨id, creation, q.1.card, q.1.set, q.1.number.written, q.2⟩

/-- The rows of its quantities. -/
def quantityRows (s : Snapshot) : List QuantityRow :=
  s.state.quantities.map (quantityRow s.deck s.creation)

end Snapshot

/-- The tables hold exactly the rows of some snapshots, no two of which are of the same
moment of a deck. -/
structure Tables.Holds (t : Tables) (ss : List Snapshot) : Prop where
  instances : t.instances = ss.map Snapshot.row
  categories : t.categories = ss.flatMap Snapshot.categoryRows
  members : t.members = ss.flatMap Snapshot.memberRows
  quantities : t.quantities = ss.flatMap Snapshot.quantityRows
  keys_nodup : (ss.map Snapshot.key).Nodup

/-- Rows that are filtered by what is the same in all rows of one item. -/
theorem filter_flatMap_of {α ρ : Type} {rows : α → List ρ} {p : ρ → Bool} {q : α → Bool}
    {xs : List α} (h : ∀ x ∈ xs, ∀ r ∈ rows x, p r = q x) :
    (xs.flatMap rows).filter p = (xs.filter q).flatMap rows := by
  induction xs with
  | nil => rfl
  | cons x xs ih =>
    obtain ⟨hx, hxs⟩ := List.forall_mem_cons.1 h
    rw [List.flatMap_cons, List.filter_append, ih hxs]
    cases hq : q x with
    | true =>
      have hall : (rows x).filter p = rows x :=
        List.filter_eq_self.2 fun r hr => (hx r hr).trans hq
      rw [hall, List.filter_cons_of_pos hq, List.flatMap_cons]
    | false =>
      have hnone : (rows x).filter p = [] :=
        List.filter_eq_nil_iff.2 fun r hr => by simp [hx r hr, hq]
      rw [hnone, List.filter_cons_of_neg (by simp [hq]), List.nil_append]

/-- The one item of a list with a key. -/
theorem filter_key {α κ : Type} [BEq κ] [LawfulBEq κ] {f : α → κ} {xs : List α}
    (h : (xs.map f).Nodup) {x : α} (hx : x ∈ xs) : xs.filter (fun y => f y == f x) = [x] := by
  induction xs with
  | nil => cases hx
  | cons y ys ih =>
    rw [List.map_cons, List.nodup_cons] at h
    obtain ⟨hy, hys⟩ := h
    by_cases hfirst : f y = f x
    · -- a later item of this key would repeat it
      have hothers : ys.filter (fun z => f z == f x) = [] := by
        rw [List.filter_eq_nil_iff]
        intro z hz heq
        exact hy (List.mem_map.2 ⟨z, hz, (eq_of_beq heq).trans hfirst.symm⟩)
      rcases List.mem_cons.1 hx with rfl | hx
      · rw [List.filter_cons, if_pos (beq_self_eq_true _), hothers]
      · exact absurd (List.mem_map.2 ⟨x, hx, hfirst.symm⟩) hy
    · rcases List.mem_cons.1 hx with rfl | hx
      · exact absurd rfl hfirst
      · rw [List.filter_cons, if_neg (by simpa using hfirst), ih hys hx]

/-! ## Adding an instance -/

theorem stored_integer {n : Int} (h : inWord n = true) : stored (storedInteger n) = .ok n :=
  stored_eq_ok.2 (storedInteger_eq_ok.2 ⟨h, rfl⟩)

theorem storedNumber_eq_ok {n : PrintingNumber} {s : String} (h : storedNumber n = .ok s) :
    s = n.written := by
  cases n with
  | text s' => exact (Except.ok.inj h).symm
  | integer m =>
    obtain ⟨k, hk, rfl⟩ := map_eq_ok.1 h
    obtain ⟨-, rfl⟩ := storedInteger_eq_ok.1 hk
    rfl

namespace Tables

/-- The rows of two quantities of one instance clash exactly if they are of the same
printing when they are stored. -/
theorem sameQuantity_iff {id : Int} {creation : String} {a b : Printing × Int} :
    sameQuantity (Snapshot.quantityRow id creation a) (Snapshot.quantityRow id creation b) = true ↔
      a.1.kept = b.1.kept := by
  simp [sameQuantity, Snapshot.quantityRow, Printing.kept, and_assoc]

/-- Quantities that are added are those of different printings, none of which had one in
the instance before. -/
theorem addQuantities_eq_ok {id : Int} {creation : String} {quantities : List (Printing × Int)}
    {rows result : List QuantityRow} (h : addQuantities id creation rows quantities = .ok result) :
    result = rows ++ quantities.map (Snapshot.quantityRow id creation) ∧
      (quantities.map fun q => q.1.kept).Nodup ∧
      ∀ q ∈ quantities, rows.any (sameQuantity (Snapshot.quantityRow id creation q)) = false := by
  induction quantities generalizing rows with
  | nil =>
    cases h
    simp
  | cons q rest ih =>
    obtain ⟨p, n⟩ := q
    unfold addQuantities at h
    obtain ⟨number, hnumber, h⟩ := bind_eq_ok.1 h
    obtain rfl := storedNumber_eq_ok hnumber
    obtain ⟨quantity, hquantity, h⟩ := bind_eq_ok.1 h
    obtain ⟨-, rfl⟩ := storedInteger_eq_ok.1 hquantity
    obtain ⟨hfresh, h⟩ := refuse_eq_ok.1 h
    obtain ⟨rfl, hnodup, hother⟩ := ih h
    refine ⟨by simp [Snapshot.quantityRow], ?_, ?_⟩
    · rw [List.map_cons, List.nodup_cons]
      refine ⟨?_, hnodup⟩
      intro hmem
      -- a later quantity of the same printing would meet the row of this one
      obtain ⟨q, hq, hsame⟩ := List.mem_map.1 hmem
      exact List.any_eq_false.1 (hother q hq) _ (List.mem_append_right _ List.mem_cons_self)
        (sameQuantity_iff.2 hsame)
    · rw [List.forall_mem_cons]
      refine ⟨by simpa [Snapshot.quantityRow] using hfresh, ?_⟩
      intro q hq
      have hrow := hother q hq
      rw [List.any_append, Bool.or_eq_false_iff] at hrow
      exact hrow.1

end Tables

theorem DeckInstance.cards_kept {i : DeckInstance} {id : Int} {card : String} :
    card ∈ (i.kept id).cards ↔ card ∈ i.cards := by
  simp only [cards, kept, mem_cardsOf, List.mem_map]
  constructor
  · rintro ⟨_, ⟨c, hc, rfl⟩, hcard⟩
    exact ⟨c, hc, (Text.mem_sorted card c.2).1 hcard⟩
  · rintro ⟨c, hc, hcard⟩
    exact ⟨_, ⟨c, hc, rfl⟩, (Text.mem_sorted card c.2).2 hcard⟩

/-- A checked instance stays so when it is stored, if no two of its printings become the
same. -/
theorem DeckInstance.Checked.kept {i : DeckInstance} (h : i.Checked) (id : Int)
    (hprintings : (i.quantities.map fun q => q.1.kept).Nodup) : (i.kept id).Checked := by
  refine ⟨Timestamp.fixed_isValid h.valid, ?_, ?_, ?_, ?_, ?_⟩
  · simpa [DeckInstance.kept, Function.comp_def] using h.names_nodup
  · intro c hc
    obtain ⟨c', hc', rfl⟩ := List.mem_map.1 hc
    exact (List.mergeSort_perm c'.2 Text.atMost).nodup_iff.2 (h.cards_nodup c' hc')
  · simpa [DeckInstance.kept, Function.comp_def] using hprintings
  · intro q hq
    obtain ⟨q', hq', rfl⟩ := List.mem_map.1 hq
    exact h.positive q' hq'
  · intro q hq
    obtain ⟨q', hq', rfl⟩ := List.mem_map.1 hq
    exact cards_kept.2 (h.categorized q' hq')

namespace Tables.Holds

variable {t t' : Tables} {ss : List Snapshot} {id : Int}

theorem hasInstance_iff (h : t.Holds ss) {creation : String} :
    t.hasInstance id creation = true ↔ (id, creation) ∈ ss.map Snapshot.key := by
  rw [Tables.hasInstance, h.instances, List.any_map, List.any_eq_true, List.mem_map]
  simp only [Function.comp_apply, Bool.and_eq_true, beq_iff_eq, Snapshot.key, Snapshot.row,
    Prod.mk.injEq]

/-- An instance that is added comes last. -/
theorem addInstance {i : DeckInstance} (h : t.Holds ss) (hi : i.Checked)
    (hadded : t.addInstance id i = .ok t') :
    ∃ s : Snapshot, s.deck = id ∧ s.state = i.kept id ∧ t'.Holds (ss ++ [s]) ∧
      t'.decks = t.decks := by
  unfold Tables.addInstance at hadded
  obtain ⟨hfresh, hadded⟩ := refuse_eq_ok.1 hadded
  obtain ⟨_, -, hadded⟩ := bind_eq_ok.1 hadded
  obtain ⟨rows, hrows, hadded⟩ := bind_eq_ok.1 hadded
  obtain rfl := pure_eq_ok.1 hadded
  obtain ⟨rfl, hprintings, -⟩ := Tables.addQuantities_eq_ok (stored_eq_ok.1 hrows)
  have htexts : ∀ q ∈ (i.kept id).quantities, q.1.kept = q.1 := by
    intro q hq
    obtain ⟨q', -, rfl⟩ := List.mem_map.1 hq
    rfl
  refine ⟨⟨id, i.kept id, rfl, hi.kept id hprintings, rfl, htexts⟩, rfl, rfl, ?_, rfl⟩
  -- each table has the rows of the new snapshot at its end
  refine ⟨?_, ?_, ?_, ?_, ?_⟩
  · simp [h.instances, Snapshot.row, Snapshot.creation, DeckInstance.kept]
  · simp [h.categories, Snapshot.categoryRows, Snapshot.creation, DeckInstance.kept]
  · simp [h.members, Snapshot.memberRows, Snapshot.creation, DeckInstance.kept,
      Tables.memberRows, List.flatMap_map]
  · simp [h.quantities, Snapshot.quantityRows, Snapshot.quantityRow, Snapshot.creation,
      DeckInstance.kept, Printing.kept, PrintingNumber.written]
  · rw [List.map_append, List.map_singleton]
    refine h.keys_nodup.append (List.nodup_singleton _) (List.disjoint_singleton.2 ?_)
    intro hmem
    exact hfresh (h.hasInstance_iff.2 hmem)

/-- Instances that are added come last, in their order. -/
theorem addInstances {is : List DeckInstance} (h : t.Holds ss) (his : ∀ i ∈ is, i.Checked)
    (hadded : t.addInstances id is = .ok t') :
    ∃ new : List Snapshot, (∀ s ∈ new, s.deck = id) ∧
      new.map Snapshot.state = is.map (DeckInstance.kept id) ∧ t'.Holds (ss ++ new) ∧
      t'.decks = t.decks := by
  induction is generalizing t ss with
  | nil =>
    cases hadded
    exact ⟨[], by simp, rfl, by simpa using h, rfl⟩
  | cons i rest ih =>
    obtain ⟨hi, hrest⟩ := List.forall_mem_cons.1 his
    unfold Tables.addInstances at hadded
    obtain ⟨mid, hmid, hadded⟩ := bind_eq_ok.1 hadded
    obtain ⟨s, hdeck, hstate, hholds, hdecks⟩ := h.addInstance hi hmid
    obtain ⟨new, hnew, hstates, hholds', hdecks'⟩ := ih hholds hrest hadded
    refine ⟨s :: new, List.forall_mem_cons.2 ⟨hdeck, hnew⟩, ?_, ?_, hdecks'.trans hdecks⟩
    · rw [List.map_cons, List.map_cons, hstate, hstates]
    · rw [List.append_cons]
      exact hholds'

/-! ## Other changes -/

/-- A deck that is removed takes its snapshots with it. -/
theorem withoutDeck (h : t.Holds ss) (id : Int) :
    (t.withoutDeck id).Holds (ss.filter fun s => s.deck != id) := by
  -- every row repeats the deck of its snapshot, so rows and snapshots are filtered alike
  refine ⟨?_, ?_, ?_, ?_, ?_⟩
  · rw [Tables.withoutDeck, h.instances, List.filter_map]
    rfl
  · rw [Tables.withoutDeck, h.categories]
    refine filter_flatMap_of fun s _ r hr => ?_
    obtain ⟨c, -, rfl⟩ := List.mem_map.1 hr
    rfl
  · rw [Tables.withoutDeck, h.members]
    refine filter_flatMap_of fun s _ r hr => ?_
    obtain ⟨c, -, hr⟩ := List.mem_flatMap.1 hr
    obtain ⟨card, -, rfl⟩ := List.mem_map.1 hr
    rfl
  · rw [Tables.withoutDeck, h.quantities]
    refine filter_flatMap_of fun s _ r hr => ?_
    obtain ⟨q, -, rfl⟩ := List.mem_map.1 hr
    rfl
  · exact h.keys_nodup.sublist (List.filter_sublist.map _)

/-- Only the tables of instances count. -/
theorem of_same (h : t.Holds ss) (hinstances : t'.instances = t.instances)
    (hcategories : t'.categories = t.categories) (hmembers : t'.members = t.members)
    (hquantities : t'.quantities = t.quantities) : t'.Holds ss :=
  ⟨hinstances.trans h.instances, hcategories.trans h.categories, hmembers.trans h.members,
    hquantities.trans h.quantities, h.keys_nodup⟩

/-- The row of a deck is no row of an instance. -/
theorem addRow (h : t.Holds ss) (r : DeckRow) : Holds { t with decks := t.decks ++ [r] } ss :=
  h.of_same rfl rfl rfl rfl

/-! ## Reading a snapshot -/

/-- Of rows that repeat the key of their snapshot, those of one key are the rows of one
snapshot. -/
theorem filter_rows (h : t.Holds ss) {ρ : Type} (rows : Snapshot → List ρ) (key : ρ → Int × String)
    (hkey : ∀ s, ∀ r ∈ rows s, key r = s.key) {s : Snapshot} (hs : s ∈ ss) :
    (ss.flatMap rows).filter (fun r => (key r).1 == s.deck && (key r).2 == s.creation) =
      rows s := by
  have hsame : ∀ x ∈ ss, ∀ r ∈ rows x,
      ((key r).1 == s.deck && (key r).2 == s.creation) = (x.key == s.key) := by
    intro x _ r hr
    rw [hkey x r hr]
    rfl
  rw [filter_flatMap_of hsame, filter_key h.keys_nodup hs]
  simp

theorem membersOf (h : t.Holds ss) {s : Snapshot} (hs : s ∈ ss)
    {c : String × List String} (hc : c ∈ s.state.categories) :
    t.membersOf s.deck s.creation c.1 = c.2 := by
  have hrows := h.filter_rows Snapshot.memberRows
    (fun r => (r.deck, r.creation)) (fun s r hr => by
      obtain ⟨c, -, hr⟩ := List.mem_flatMap.1 hr
      obtain ⟨card, -, rfl⟩ := List.mem_map.1 hr
      rfl) hs
  have hcategory : s.memberRows.filter (fun r => r.category == c.1) =
      c.2.map fun card => ⟨s.deck, s.creation, card, c.1⟩ := by
    rw [Snapshot.memberRows, filter_flatMap_of (q := fun x => x.1 == c.1),
      filter_key s.checked.names_nodup hc, List.flatMap_singleton]
    intro x _ r hr
    obtain ⟨card, -, rfl⟩ := List.mem_map.1 hr
    rfl
  rw [Tables.membersOf, h.members]
  have hsplit : (ss.flatMap Snapshot.memberRows).filter (fun r =>
      r.deck == s.deck && r.creation == s.creation && r.category == c.1) =
      s.memberRows.filter fun r => r.category == c.1 := by
    rw [← hrows, List.filter_filter]
    congr 1
    funext r
    exact Bool.and_comm _ _
  rw [hsplit, hcategory, List.map_map]
  exact List.map_id c.2

theorem categoriesOf (h : t.Holds ss) {s : Snapshot} (hs : s ∈ ss) :
    t.categoriesOf s.deck s.creation = s.state.categories := by
  have hrows := h.filter_rows Snapshot.categoryRows
    (fun r => (r.deck, r.creation)) (fun s r hr => by
      obtain ⟨c, -, rfl⟩ := List.mem_map.1 hr
      rfl) hs
  rw [Tables.categoriesOf, h.categories, hrows, Snapshot.categoryRows, List.map_map]
  -- the categories are those of the snapshot, and each is read with its own cards
  conv_rhs => rw [← List.map_id s.state.categories]
  refine List.map_congr_left fun c hc => ?_
  exact Prod.ext rfl (h.membersOf hs hc)

theorem quantitiesOf (h : t.Holds ss) {s : Snapshot} (hs : s ∈ ss) :
    t.quantitiesOf s.deck s.creation = s.state.quantities.map fun q => (q.1, Value.int q.2) := by
  have hrows := h.filter_rows Snapshot.quantityRows
    (fun r => (r.deck, r.creation)) (fun s r hr => by
      obtain ⟨q, -, rfl⟩ := List.mem_map.1 hr
      rfl) hs
  rw [Tables.quantitiesOf, h.quantities, hrows, Snapshot.quantityRows, List.map_map]
  exact List.map_congr_left fun q hq => Prod.ext (s.texts q hq) rfl

/-- A stored instance is read back as it is stored. -/
theorem deckInstance (h : t.Holds ss) {s : Snapshot} (hs : s ∈ ss) :
    t.deckInstance s.deck s.creation = .ok s.state := by
  rw [Tables.deckInstance, s.ofText?_creation]
  have hread := s.checked.ofParts
  rw [s.owned] at hread
  change (DeckInstance.ofParts (some s.deck) (some s.state.creation)
    (t.categoriesOf s.deck s.creation) (t.quantitiesOf s.deck s.creation)).mapError _ = _
  rw [h.categoriesOf hs, h.quantitiesOf hs, hread]
  rfl

/-- Stored instances of a deck are read one after the other. -/
theorem deckInstances (h : t.Holds ss) {xs : List Snapshot}
    (hxs : ∀ s ∈ xs, s ∈ ss ∧ s.deck = id) :
    t.deckInstances id (xs.map Snapshot.creation) = .ok (xs.map Snapshot.state) := by
  induction xs with
  | nil => rfl
  | cons s rest ih =>
    obtain ⟨⟨hs, rfl⟩, hrest⟩ := List.forall_mem_cons.1 hxs
    rw [List.map_cons, Tables.deckInstances, h.deckInstance hs, ih hrest]
    rfl

/-- The moments of a deck are those of its snapshots. -/
theorem creations (h : t.Holds ss) (id : Int) :
    t.creations id =
      (Text.sortedBy Snapshot.creation (ss.filter fun s => s.deck == id)).map Snapshot.creation := by
  rw [Tables.creations, h.instances, List.filter_map, List.map_map, Text.sorted, Text.sortedBy,
    List.map_mergeSort (s := Text.atMost) fun _ _ _ _ => rfl]
  rfl

end Tables.Holds

end CardArchive
