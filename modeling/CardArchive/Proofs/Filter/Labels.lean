import CardArchive.Proofs.Filter.Members
import CardArchive.Proofs.Store.Coherence
import CardArchive.Proofs.Store.Reachable

/-!
# Cards by their labels

Colors, color identities and the three kinds of types are labels of a card, one record
for each. A category of labels selects cards from the table of its labels if it asks for
a label, and from the cards themselves if it only forbids some. Either way it selects the
cards that have every required label, no forbidden one, and an alternative one if there
are alternatives, whatever values the modes share.

## What this module delivers

* `Accepts`: what the values of a category ask of a card.
* `Category.side?`: the categories of labels, with the table of each.
* `labelsNamed_after`: a stored label is of a stored card.
* `holds_sideNested`: what the nested selections ask of a card.
* `mem_sideCells_byRows`, `mem_sideCells_byCards`: the two forms of the selection.
* `label_category_selects`: the cards that a category of labels selects.
-/

set_option autoImplicit false

namespace CardArchive

open CardArchive.Numbering

/-! ## What values ask of a card -/

/-- What the filters of a category ask of a card that has some values: every required
value, no forbidden one, and one of the alternatives if there are any. -/
structure Accepts (es : List Entry) (has : String → Prop) : Prop where
  required : ∀ v, .value v .mustInclude ∈ es → has v
  forbidden : ∀ v, .value v .disallow ∈ es → ¬has v
  alternative : (∃ v, .value v .oneOf ∈ es) → ∃ v, .value v .oneOf ∈ es ∧ has v

theorem mem_must {es : List Entry} {v : String} :
    v ∈ (split es).must ↔ Entry.value v .mustInclude ∈ es := mem_byMode_split (m := .mustInclude)

theorem mem_disallow {es : List Entry} {v : String} :
    v ∈ (split es).disallow ↔ Entry.value v .disallow ∈ es := mem_byMode_split (m := .disallow)

theorem mem_oneOf {es : List Entry} {v : String} :
    v ∈ (split es).oneOf ↔ Entry.value v .oneOf ∈ es := mem_byMode_split (m := .oneOf)

theorem mem_included {p : Partition} {v : String} : v ∈ p.included ↔ v ∈ p.must ∨ v ∈ p.oneOf := by
  rw [Partition.included, List.mem_eraseDups, List.mem_append]

/-- The same in terms of the values by mode. -/
theorem accepts_iff {es : List Entry} {has : String → Prop} :
    Accepts es has ↔ (∀ v ∈ (split es).must, has v) ∧ (∀ v ∈ (split es).disallow, ¬has v) ∧
      ((split es).oneOf ≠ [] → ∃ v ∈ (split es).oneOf, has v) := by
  have hsome : (split es).oneOf ≠ [] ↔ ∃ v, Entry.value v .oneOf ∈ es := by
    rw [Ne, List.eq_nil_iff_forall_not_mem, not_forall]
    simp only [not_not, mem_oneOf]
  simp only [hsome, mem_must, mem_disallow, mem_oneOf]
  exact ⟨fun h => ⟨h.required, h.forbidden, h.alternative⟩, fun h => ⟨h.1, h.2.1, h.2.2⟩⟩

/-! ## Tables of labels -/

/-- The table of labels that a category asks, if it is one of labels. -/
def Category.side? : Category → Option Side
  | .color => some .color
  | .colorIdentity => some .colorIdentity
  | .supertype => some .supertype
  | .type => some .type
  | .subtype => some .subtype
  | _ => none

/-- Every label in a table, with the name of its card. -/
def Tables.labelPairs (t : Tables) (side : Side) : List (String × String) :=
  (t.side side).map fun r => (r.card, r.label)

section

variable {t : Tables} {c : Category} {side : Side}

theorem Tables.mem_labelPairs {name v : String} :
    (name, v) ∈ t.labelPairs side ↔ (⟨name, v⟩ : LabelRow) ∈ t.side side := by
  rw [labelPairs, List.mem_map]
  constructor
  · rintro ⟨⟨card, label⟩, hr, heq⟩
    cases heq
    exact hr
  · intro h
    exact ⟨_, h, rfl⟩

theorem relations_side (hc : c.side? = some side) :
    t.relations.Pairs c.sideTable.1 c.sideTable.2 (t.labelPairs side) := by
  have hrecords : t.relations c.sideTable.1 =
      (t.side side).map (LabelRow.record c.sideTable.2) := by
    cases c <;> cases hc <;> rfl
  have hcells : ∀ r : LabelRow, (r.record c.sideTable.2).cell c.sideTable.2 = .text r.label := by
    intro r
    cases c <;> cases hc <;> rfl
  rw [Relations.Pairs, hrecords, Tables.labelPairs, List.map_map, List.map_map]
  apply List.map_congr_left
  intro r _
  exact Prod.ext rfl (hcells r)

/-- Every label that is stored is of a card that is stored. -/
def Tables.LabelsNamed (t : Tables) : Prop :=
  ∀ side, ∀ r ∈ t.side side, t.hasCard r.card = true

/-- A label behind an insertion was there before, or is of a card that was. -/
theorem label_of_insertion {t' : Tables} (h : Tables.Insertion t t') {r : LabelRow}
    (hr : r ∈ t'.side side) : r ∈ t.side side ∨ t.hasCard r.card = true := by
  cases h with
  | label s row hnew hcard =>
    by_cases hside : side = s
    · subst hside
      rw [Tables.side_setSide_self, List.mem_append, List.mem_singleton] at hr
      rcases hr with hr | rfl
      · exact .inl hr
      · exact .inr hcard
    · rw [Tables.side_setSide_ne hside] at hr
      exact .inl hr
  | _ => cases side <;> exact .inl hr

theorem labelsNamed_insertion {t' : Tables} (h : Tables.Insertion t t') (ht : t.LabelsNamed) :
    t'.LabelsNamed := by
  intro side r hr
  apply Tables.Keyed.hasCard_mono (.of_insertion h)
  rcases label_of_insertion h hr with hr | hcard
  · exact ht side r hr
  · exact hcard

/-- After any changes, a stored label is of a stored card. -/
theorem labelsNamed_after (changes : List Change) :
    (Database.after changes).tables.LabelsNamed := by
  apply Database.after_preserves
  · intro side r hr
    cases side <;> cases hr
  · exact fun t t' h ht => labelsNamed_insertion h ht
  · intro t t' h ht side r hr
    have hcards : t'.cardPart.cards = t.cardPart.cards := congrArg Tables.cards h
    have hside : t'.cardPart.side side = t.cardPart.side side := by rw [h]
    have hr : r ∈ t'.cardPart.side side := by
      cases side <;> exact hr
    rw [hside] at hr
    have hnamed := ht side r (by cases side <;> exact hr)
    rw [Tables.hasCard] at hnamed ⊢
    exact hcards ▸ hnamed

end

/-! ## The selection of a category of labels -/

section

variable {t : Tables} {c : Category} {side : Side} {p : Partition} {scope s : Scope}

/-- The selection of cards that a category of labels builds from one number on. -/
def sideSelect (c : Category) (p : Partition) (n : Nat) : Select :=
  selectColumn (sideKey p (aliasName n)) (if !p.included.isEmpty then c.sideTable.1 else "Card") []
    (sideOwn p ⟨aliasName n, c.sideTable.2⟩ ++
      (layout (sideNested c p) (n + 1)).map (cardTest (sideKey p (aliasName n))))

theorem mem_sideCells {n : Nat} {cell : Cell} :
    cell ∈ firstCells ((sideSelect c p n).rows t.relations scope) ↔
      ∃ r ∈ t.relations (if !p.included.isEmpty then c.sideTable.1 else "Card"),
        (∀ e ∈ sideOwn p ⟨aliasName n, c.sideTable.2⟩,
          e.Holds t.relations (scope.bind (aliasName n) r)) ∧
        (∀ e ∈ (layout (sideNested c p) (n + 1)).map (cardTest (sideKey p (aliasName n))),
          e.Holds t.relations (scope.bind (aliasName n) r)) ∧
        r.cell (sideKey p (aliasName n)).name = cell := by
  rw [sideSelect, selectColumn, mem_cells_single]
  simp only [mem_keptScopes, extendAll, List.mem_map, List.forall_mem_append]
  constructor
  · rintro ⟨_, ⟨⟨r, hr, rfl⟩, hown, hnested⟩, hcell⟩
    refine ⟨r, hr, hown, hnested, ?_⟩
    rwa [Scope.cell, sideKey, Scope.bind_self] at hcell
  · rintro ⟨r, hr, hown, hnested, hcell⟩
    refine ⟨_, ⟨⟨r, hr, rfl⟩, hown, hnested⟩, ?_⟩
    rw [Scope.cell, sideKey, Scope.bind_self]
    exact hcell

variable (hc : c.side? = some side)
include hc

/-- The nested selections ask that a named card has all required labels, an alternative one
if labels are required as well, and no forbidden one. -/
theorem holds_sideNested (hmust : p.must.Nodup) {key : Column} {name : String}
    (hkey : s.cell key = .text name) (n : Nat) :
    (∀ e ∈ (layout (sideNested c p) n).map (cardTest key), e.Holds t.relations s) ↔
      (∀ v ∈ p.must, (name, v) ∈ t.labelPairs side) ∧
      (p.must ≠ [] → p.oneOf ≠ [] → ∃ v ∈ p.oneOf, (name, v) ∈ t.labelPairs side) ∧
      ∀ v ∈ p.disallow, (name, v) ∉ t.labelPairs side := by
  have hpairs := relations_side (t := t) hc
  have hcovering : ∀ m, (!p.must.isEmpty) = true →
      ((cardTest key ((coveringNested c.sideTable.1 c.sideTable.2 p.must).build m)).Holds
        t.relations s ↔ ∀ v ∈ p.must, (name, v) ∈ t.labelPairs side) := by
    intro m hne
    exact holds_covering hpairs hmust (by simpa using hne) hkey m
  rw [sideNested, layout_append, layout_append, List.forall_mem_map, List.forall_mem_append,
    List.forall_mem_append, forall_layout_given, forall_layout_given, forall_layout_given,
    holds_member hpairs hkey, holds_nonmember hpairs hkey, and_assoc]
  refine and_congr ?_ (and_congr ?_ ?_)
  · constructor
    · intro h v hv
      have hne : (!p.must.isEmpty) = true := by simpa using List.ne_nil_of_mem hv
      exact (hcovering n hne).1 (h hne) v hv
    · exact fun h hne => (hcovering n hne).2 h
  · simp
  · constructor
    · intro h v hv
      exact h (by simpa using List.ne_nil_of_mem hv) v hv
    · exact fun h _ => h

/-- If labels are asked for, the selection goes through the labels: it lists the cards with
an asked label that is not forbidden, if the nested selections agree. -/
theorem mem_sideCells_byRows (hmust : p.must.Nodup) (hasked : p.included ≠ []) {n : Nat}
    {cell : Cell} :
    cell ∈ firstCells ((sideSelect c p n).rows t.relations scope) ↔ ∃ name,
      cell = .text name ∧
      (∃ v ∈ p.included, v ∉ p.disallow ∧ (name, v) ∈ t.labelPairs side) ∧
      (∀ v ∈ p.must, (name, v) ∈ t.labelPairs side) ∧
      (p.must ≠ [] → p.oneOf ≠ [] → ∃ v ∈ p.oneOf, (name, v) ∈ t.labelPairs side) ∧
      ∀ v ∈ p.disallow, (name, v) ∉ t.labelPairs side := by
  have hpairs := relations_side (t := t) hc
  have hrows : (!p.included.isEmpty) = true := by simpa using hasked
  have hname : ∀ source, (sideKey p source).name = "card_name" := by
    intro source
    rw [sideKey, if_pos hrows]
  -- the two tests of the row's own label
  have hown : ∀ (r : Record) (v : String), r.cell c.sideTable.2 = .text v →
      ((∀ e ∈ sideOwn p ⟨aliasName n, c.sideTable.2⟩,
        e.Holds t.relations (scope.bind (aliasName n) r)) ↔ v ∉ p.disallow ∧ v ∈ p.included) := by
    intro r v hv
    have hcell : (scope.bind (aliasName n) r).cell ⟨aliasName n, c.sideTable.2⟩ = .text v := by
      rw [Scope.cell, Scope.bind_self, hv]
    rw [sideOwn, hrows, Bool.true_and, if_pos rfl, List.forall_mem_append,
      List.forall_mem_singleton, holds_listed, hcell]
    refine and_congr ?_ ?_
    · cases hdisallow : p.disallow with
      | nil => simp
      | cons w ws =>
        rw [← hdisallow, if_pos (by simp [hdisallow]), List.forall_mem_singleton,
          holds_unlisted hcell]
    · simp
  have hkey : ∀ (r : Record) (name : String), r.cell "card_name" = .text name →
      (scope.bind (aliasName n) r).cell (sideKey p (aliasName n)) = .text name := by
    intro r name hr
    rw [Scope.cell, hname, sideKey, Scope.bind_self, hr]
  rw [mem_sideCells, if_pos hrows, hname]
  constructor
  · rintro ⟨r, hr, hrow, hnested, hcell⟩
    obtain ⟨⟨name, v⟩, hp, hk, hv⟩ := hpairs.mem_iff.1 ⟨r, hr, rfl, rfl⟩
    obtain ⟨hallowed, hin⟩ := (hown r v hv).1 hrow
    exact ⟨name, hcell.symm.trans hk, ⟨v, hin, hallowed, hp⟩,
      (holds_sideNested hc hmust (hkey r name hk) (n + 1)).1 hnested⟩
  · rintro ⟨name, rfl, ⟨v, hin, hallowed, hp⟩, hnested⟩
    obtain ⟨r, hr, hk, hv⟩ := hpairs.mem_iff.2 ⟨_, hp, rfl, rfl⟩
    exact ⟨r, hr, (hown r v hv).2 ⟨hallowed, hin⟩,
      (holds_sideNested hc hmust (hkey r name hk) (n + 1)).2 hnested, hk⟩

/-- If labels are only forbidden, the selection goes through the cards: it lists the named
ones without a forbidden label, and one without a name only if nothing has a forbidden
label. -/
theorem mem_sideCells_byCards (hasked : p.included = []) {n : Nat} {cell : Cell} :
    cell ∈ firstCells ((sideSelect c p n).rows t.relations scope) ↔ ∃ card ∈ t.cards,
      cell = .ofText? card.name ∧
      (∀ name, card.name = some name → ∀ v ∈ p.disallow, (name, v) ∉ t.labelPairs side) ∧
      (card.name = none → ∀ q ∈ t.labelPairs side, q.2 ∉ p.disallow) := by
  have hpairs := relations_side (t := t) hc
  have hnone : ∀ v, v ∉ p.must ∧ v ∉ p.oneOf := by
    intro v
    have hv : v ∉ p.included := by rw [hasked]; exact List.not_mem_nil
    rwa [mem_included, not_or] at hv
  have hmust : p.must = [] := List.eq_nil_iff_forall_not_mem.2 fun v => (hnone v).1
  have hrows : (!p.included.isEmpty) = false := by rw [hasked]; rfl
  have hname : ∀ source, (sideKey p source).name = "name" := by
    intro source
    rw [sideKey, hrows]
    rfl
  have hown : sideOwn p ⟨aliasName n, c.sideTable.2⟩ = [] := by
    rw [sideOwn, hrows]
    rfl
  have hcards : t.relations "Card" = t.cards.map CardRow.record := rfl
  have hkey : ∀ card : CardRow, (scope.bind (aliasName n) card.record).cell
      (sideKey p (aliasName n)) = .ofText? card.name := by
    intro card
    rw [Scope.cell, hname, sideKey, Scope.bind_self]
    rfl
  -- the tests of a card, by whether it has a name
  have hnested : ∀ card : CardRow,
      (∀ e ∈ (layout (sideNested c p) (n + 1)).map (cardTest (sideKey p (aliasName n))),
        e.Holds t.relations (scope.bind (aliasName n) card.record)) ↔
      (∀ name, card.name = some name → ∀ v ∈ p.disallow, (name, v) ∉ t.labelPairs side) ∧
        (card.name = none → ∀ q ∈ t.labelPairs side, q.2 ∉ p.disallow) := by
    intro card
    have hcell := hkey card
    cases hcard : card.name with
    | some name =>
      rw [hcard] at hcell
      rw [holds_sideNested hc (by rw [hmust]; exact List.nodup_nil) hcell, hmust]
      simp
    | none =>
      rw [hcard] at hcell
      have hlaid : layout (sideNested c p) (n + 1) = layout (given (!p.disallow.isEmpty)
          (memberNested c.sideTable.1 c.sideTable.2 p.disallow true)) (n + 1) := by
        rw [sideNested, hmust]
        rfl
      rw [hlaid, List.forall_mem_map, forall_layout_given,
        holds_nonmember_null hpairs hcell]
      constructor
      · intro h
        refine ⟨fun name hname => (by cases hname), fun _ q hq hin => ?_⟩
        exact h (by simpa using List.ne_nil_of_mem hin) q hq hin
      · exact fun h _ => h.2 rfl
  rw [mem_sideCells, hrows, hname, hown, if_neg Bool.false_ne_true, hcards]
  constructor
  · rintro ⟨_, hr, -, htests, hcell⟩
    obtain ⟨card, hcard, rfl⟩ := List.mem_map.1 hr
    exact ⟨card, hcard, hcell.symm, (hnested card).1 htests⟩
  · rintro ⟨card, hcard, hcell, htests⟩
    exact ⟨card.record, List.mem_map_of_mem hcard, List.forall_mem_nil _,
      (hnested card).2 htests, hcell.symm⟩

end

/-! ## Cards by labels -/

theorem included_eq_nil {es : List Entry} :
    (split es).included = [] ↔ ∀ v m, .value v m ∈ es → m = .disallow := by
  rw [List.eq_nil_iff_forall_not_mem]
  simp only [mem_included, mem_must, mem_oneOf, not_or]
  constructor
  · intro h v m hv
    cases m with
    | mustInclude => exact absurd hv (h v).1
    | disallow => rfl
    | oneOf => exact absurd hv (h v).2
  · intro h v
    exact ⟨fun hv => (nomatch h v _ hv), fun hv => (nomatch h v _ hv)⟩

theorem hasCard_iff {t : Tables} {name : String} :
    t.hasCard name = true ↔ ∃ card ∈ t.cards, card.name = some name := by
  rw [Tables.hasCard, List.any_eq_true]
  simp only [beq_iff_eq]

section

variable {t : Tables} {c : Category} {side : Side} (hc : c.side? = some side) {es : List Entry}
  {scope : Scope} {n : Nat}
include hc

/-- A named card is selected exactly if it is stored and the values accept its labels. -/
theorem text_mem_sideCells (hnamed : t.LabelsNamed) {name : String} :
    .text name ∈ firstCells ((sideSelect c (split es) n).rows t.relations scope) ↔
      t.hasCard name = true ∧ Accepts es fun v => (⟨name, v⟩ : LabelRow) ∈ t.side side := by
  have hmust : (split es).must.Nodup := nodup_eraseDups _
  simp only [accepts_iff, ← Tables.mem_labelPairs]
  by_cases hasked : (split es).included = []
  · rw [mem_sideCells_byCards hc hasked, hasCard_iff]
    have hnone : ∀ v, v ∉ (split es).must ∧ v ∉ (split es).oneOf := by
      intro v
      have hv : v ∉ (split es).included := by
        rw [hasked]
        exact List.not_mem_nil
      rwa [mem_included, not_or] at hv
    constructor
    · rintro ⟨card, hcard, hcell, hforbidden, -⟩
      have hname : card.name = some name := by
        cases hn : card.name with
        | none =>
          rw [hn] at hcell
          cases hcell
        | some name' =>
          rw [hn] at hcell
          rw [Cell.text.inj hcell]
      refine ⟨⟨card, hcard, hname⟩, fun v hv => absurd hv (hnone v).1, hforbidden name hname, ?_⟩
      intro hsome
      obtain ⟨v, hv⟩ := List.exists_mem_of_ne_nil _ hsome
      exact absurd hv (hnone v).2
    · rintro ⟨⟨card, hcard, hname⟩, -, hforbidden, -⟩
      refine ⟨card, hcard, by rw [hname]; rfl, ?_, ?_⟩
      · intro name' hname'
        obtain rfl : name = name' := Option.some.inj (hname.symm.trans hname')
        exact hforbidden
      · intro hnone
        rw [hname] at hnone
        cases hnone
  · rw [mem_sideCells_byRows hc hmust hasked]
    constructor
    · rintro ⟨name', hcell, ⟨v, hin, hallowed, hp⟩, hrequired, halternative, hforbidden⟩
      obtain rfl : name = name' := Cell.text.inj hcell
      refine ⟨hnamed side _ (Tables.mem_labelPairs.1 hp), hrequired, hforbidden, fun hsome => ?_⟩
      by_cases hempty : (split es).must = []
      · -- nothing is required, so the row itself has an alternative label
        rcases mem_included.1 hin with hin | hin
        · rw [hempty] at hin
          exact absurd hin List.not_mem_nil
        · exact ⟨v, hin, hp⟩
      · exact halternative hempty hsome
    · rintro ⟨-, hrequired, hforbidden, halternative⟩
      refine ⟨name, rfl, ?_, hrequired, fun _ => halternative, hforbidden⟩
      -- a label that was asked for is in a row of the card
      have hlabel : ∃ v ∈ (split es).included, (name, v) ∈ t.labelPairs side := by
        by_cases hempty : (split es).must = []
        · obtain ⟨v, hv⟩ := List.exists_mem_of_ne_nil _ hasked
          have hsome : (split es).oneOf ≠ [] := by
            rcases mem_included.1 hv with hv | hv
            · rw [hempty] at hv
              exact absurd hv List.not_mem_nil
            · exact List.ne_nil_of_mem hv
          obtain ⟨w, hw, hp⟩ := halternative hsome
          exact ⟨w, mem_included.2 (.inr hw), hp⟩
        · obtain ⟨v, hv⟩ := List.exists_mem_of_ne_nil _ hempty
          exact ⟨v, mem_included.2 (.inl hv), hrequired v hv⟩
      obtain ⟨v, hin, hp⟩ := hlabel
      exact ⟨v, hin, fun hv => hforbidden v hv hp, hp⟩

/-- A card without a name is selected only by exclusions that exclude nothing. -/
theorem null_mem_sideCells :
    .null ∈ firstCells ((sideSelect c (split es) n).rows t.relations scope) ↔
      (∀ v m, .value v m ∈ es → m = .disallow) ∧ (∃ card ∈ t.cards, card.name = none) ∧
        ∀ v, .value v .disallow ∈ es → ∀ r ∈ t.side side, r.label ≠ v := by
  have hforbidden : (∀ q ∈ t.labelPairs side, q.2 ∉ (split es).disallow) ↔
      ∀ v, .value v .disallow ∈ es → ∀ r ∈ t.side side, r.label ≠ v := by
    simp only [Tables.labelPairs, List.forall_mem_map, mem_disallow]
    constructor
    · rintro h _ hv r hr rfl
      exact h r hr hv
    · intro h r hr hv
      exact h _ hv r hr rfl
  rw [← included_eq_nil, ← hforbidden]
  by_cases hasked : (split es).included = []
  · rw [mem_sideCells_byCards hc hasked]
    constructor
    · rintro ⟨card, hcard, hcell, -, hnone⟩
      have hname : card.name = none := by
        cases hn : card.name with
        | none => rfl
        | some name =>
          rw [hn] at hcell
          cases hcell
      exact ⟨hasked, ⟨card, hcard, hname⟩, hnone hname⟩
    · rintro ⟨-, ⟨card, hcard, hname⟩, hnone⟩
      refine ⟨card, hcard, by rw [hname]; rfl, ?_, fun _ => hnone⟩
      intro name hsome
      rw [hname] at hsome
      cases hsome
  · rw [mem_sideCells_byRows hc (nodup_eraseDups _) hasked]
    constructor
    · rintro ⟨name, hcell, -⟩
      cases hcell
    · rintro ⟨hnone, -⟩
      exact absurd hnone hasked

/-- What is selected is a name or a missing one. -/
theorem text_or_null_of_mem_sideCells {cell : Cell}
    (h : cell ∈ firstCells ((sideSelect c (split es) n).rows t.relations scope)) :
    cell = .null ∨ ∃ name, cell = .text name := by
  by_cases hasked : (split es).included = []
  · obtain ⟨card, -, rfl, -⟩ := (mem_sideCells_byCards hc hasked).1 h
    cases card.name with
    | none => exact .inl rfl
    | some name => exact .inr ⟨name, rfl⟩
  · obtain ⟨name, rfl, -⟩ := (mem_sideCells_byRows hc (nodup_eraseDups _) hasked).1 h
    exact .inr ⟨name, rfl⟩

end

/-- **A category of labels selects by its law.** After any changes of the archive, the
values of a category of labels compile to a selection whose rows are single cells: names
of cards, or a missing one. A name is selected exactly if its card is stored and has every
required label, no forbidden one, and one of the alternatives if there are any; cards
without any label are no exception. A missing name is selected only if labels are
forbidden and nothing else, a card without a name is stored, and no card has a forbidden
label. -/
theorem label_category_selects (changes : List Change) (ctx : Context) {c : Category} {side : Side}
    (hc : c.side? = some side) {es : List Entry} (hne : es ≠ [])
    (hv : ∀ e ∈ es, e.isValue = true) (n : Nat) :
    ∃ s next, (compileCategory ctx c es).Yields n (some (.cards s)) next ∧ ∀ scope : Scope,
      let t := (Database.after changes).tables
      let rows := s.rows t.relations scope
      (∀ row ∈ rows, row = [.null] ∨ ∃ name, row = [.text name]) ∧
      (∀ name, [.text name] ∈ rows ↔ t.hasCard name = true ∧
        Accepts es fun v => (⟨name, v⟩ : LabelRow) ∈ t.side side) ∧
      ([.null] ∈ rows ↔ (∀ v m, .value v m ∈ es → m = .disallow) ∧
        (∃ card ∈ t.cards, card.name = none) ∧
        ∀ v, .value v .disallow ∈ es → ∀ r ∈ t.side side, r.label ≠ v) := by
  have hbuilt : (compileCategory ctx c es).Yields n (some (.cards (sideSelect c (split es) n)))
      (n + (sideFragment c (split es)).size) := by
    unfold compileCategory
    rw [if_neg (by simpa using hne)]
    refine yields_map some ?_
    cases c <;> cases hc <;> exact compileSide_yields hne hv _ n
  refine ⟨_, _, hbuilt, fun scope => ?_⟩
  intro t rows
  have hsingle : ∀ row ∈ rows, row.length = 1 := fun row hrow => length_of_mem_rows hrow
  refine ⟨?_, ?_, ?_⟩
  · intro row hrow
    obtain ⟨cell, rfl⟩ := List.length_eq_one_iff.1 (hsingle row hrow)
    rcases text_or_null_of_mem_sideCells hc ((mem_firstCells_of_length hsingle).2 hrow) with
      rfl | ⟨name, rfl⟩
    · exact .inl rfl
    · exact .inr ⟨name, rfl⟩
  · intro name
    rw [← mem_firstCells_of_length hsingle]
    exact text_mem_sideCells hc (labelsNamed_after changes)
  · rw [← mem_firstCells_of_length hsingle]
    exact null_mem_sideCells hc

/-- Green is required and an alternative as well, blue is forbidden. -/
def greenNotBlue : List Entry :=
  [.value "G" .mustInclude, .value "U" .disallow, .value "B" .oneOf, .value "G" .oneOf]

theorem greenNotBlue_selects :
    Category.side? .color = some .color ∧ greenNotBlue ≠ [] ∧
      (∀ e ∈ greenNotBlue, e.isValue = true) ∧
      ∃ s next, (compileCategory ⟨"t0", []⟩ .color greenNotBlue).Yields 1 (some (.cards s)) next ∧
        [.text "Asmira"] ∈
          s.rows (Database.after [.insertSet wholeSet]).tables.relations Scope.empty := by
  have hvalues : ∀ e ∈ greenNotBlue, e.isValue = true := by decide
  have hne : greenNotBlue ≠ [] := List.cons_ne_nil _ _
  obtain ⟨s, next, hbuilt, hlaw⟩ :=
    label_category_selects [.insertSet wholeSet] ⟨"t0", []⟩ (c := .color) rfl hne hvalues 1
  refine ⟨rfl, hne, hvalues, s, next, hbuilt, ?_⟩
  obtain ⟨-, hnames, -⟩ := hlaw Scope.empty
  have hgreen : (⟨"Asmira", "G"⟩ : LabelRow) ∈
      (Database.after [.insertSet wholeSet]).tables.side .color := by decide +kernel
  refine (hnames "Asmira").2 ⟨by decide +kernel, ?_, ?_, ?_⟩
  · intro v hv
    obtain rfl : v = "G" := by simpa [greenNotBlue] using hv
    exact hgreen
  · intro v hv
    obtain rfl : v = "U" := by simpa [greenNotBlue] using hv
    decide +kernel
  · exact fun _ => ⟨"G", by simp [greenNotBlue], hgreen⟩

end CardArchive
