import CardArchive.Proofs.Filter.Labels
import CardArchive.Proofs.Search.Selected

/-!
# Printings by values of their own

A printing has one set, one artist and one rarity, and its card may have many printings.
A category of such values tests the printing itself, and looks at the other printings of
the card only where one printing can not have all that is asked for. The law is the same
with and without that look: a single required value that the printing has is one that its
card has.

## What this module delivers

* `Tables.AcceptsPrinting`: what the values of a category ask of a printing.
* `holds_ownTests`: the tests of the printing itself.
* `required_of_own`: where the card need not be looked at.
* `holds_spanning`: the tests of a printing and of its card together.
* `printing_category_selects`: the printings that sets, artists and rarities select.
-/

set_option autoImplicit false

namespace CardArchive

open CardArchive.Numbering

/-! ## What values ask of a printing -/

/-- Whether some printing of a card has a value. -/
def Tables.HasPrinting (t : Tables) (has : PrintingRow → String → Prop) (card v : String) : Prop :=
  ∃ q ∈ t.printings, q.card = card ∧ has q v

/-- What the filters of a category ask of a printing, where each printing has some values.
It must have no forbidden value itself, and if values are required or alternative, it must
have one of them; its card must have every required value on some printing, and an
alternative one if values are both required and alternative. -/
structure Tables.AcceptsPrinting (t : Tables) (has : PrintingRow → String → Prop)
    (es : List Entry) (r : PrintingRow) : Prop where
  forbidden : ∀ v, .value v .disallow ∈ es → ¬has r v
  own : (∃ v, .value v .mustInclude ∈ es ∨ .value v .oneOf ∈ es) →
    ∃ v, (.value v .mustInclude ∈ es ∨ .value v .oneOf ∈ es) ∧ has r v
  required : ∀ v, .value v .mustInclude ∈ es → t.HasPrinting has r.card v
  alternative : (∃ v, .value v .mustInclude ∈ es) → (∃ v, .value v .oneOf ∈ es) →
    ∃ v, .value v .oneOf ∈ es ∧ t.HasPrinting has r.card v

section

variable {t : Tables} {has : PrintingRow → String → Prop} {r : PrintingRow}

/-- The same in terms of the values by mode. -/
theorem acceptsPrinting_iff {es : List Entry} :
    t.AcceptsPrinting has es r ↔
      (∀ v ∈ (split es).disallow, ¬has r v) ∧
      ((split es).included ≠ [] → ∃ v ∈ (split es).included, has r v) ∧
      (∀ v ∈ (split es).must, t.HasPrinting has r.card v) ∧
      ((split es).must ≠ [] → (split es).oneOf ≠ [] →
        ∃ v ∈ (split es).oneOf, t.HasPrinting has r.card v) := by
  have hsome : ∀ vs : List String, vs ≠ [] ↔ ∃ v, v ∈ vs := fun vs =>
    ⟨List.exists_mem_of_ne_nil vs, fun ⟨_, hv⟩ => List.ne_nil_of_mem hv⟩
  simp only [hsome, mem_included, mem_must, mem_disallow, mem_oneOf]
  exact ⟨fun h => ⟨h.forbidden, h.own, h.required, h.alternative⟩,
    fun h => ⟨h.1, h.2.1, h.2.2.1, h.2.2.2⟩⟩

instance [∀ q v, Decidable (has q v)] (card v : String) :
    Decidable (t.HasPrinting has card v) :=
  inferInstanceAs (Decidable (∃ q ∈ t.printings, q.card = card ∧ has q v))

instance [∀ q v, Decidable (has q v)] (es : List Entry) :
    Decidable (t.AcceptsPrinting has es r) :=
  decidable_of_iff _ acceptsPrinting_iff.symm

/-! ## The card need not be looked at -/

/-- Only a single required value without alternatives is not looked for on the card's other
printings. -/
theorem eq_singleton_of_spansPrintings {p : Partition} (h : p.spansPrintings = false) {v : String}
    (hv : v ∈ p.must) : p.must = [v] ∧ p.oneOf = [] := by
  rw [Partition.spansPrintings, Bool.or_eq_false_iff] at h
  obtain ⟨hfew, halternative⟩ := h
  have hlength : p.must.length = 1 := by
    have hpositive := List.length_pos_of_mem hv
    have hfew := of_decide_eq_false hfew
    omega
  obtain ⟨w, hw⟩ := List.length_eq_one_iff.1 hlength
  rw [hw, List.mem_singleton] at hv
  refine ⟨hv ▸ hw, ?_⟩
  simpa [hw] using halternative

/-- A stored printing that has one of the values asked for shows that its card has every
required one, where the card is not looked at. -/
theorem required_of_own (hr : r ∈ t.printings) {p : Partition}
    (hown : p.included ≠ [] → ∃ v ∈ p.included, has r v)
    (hspans : p.spansPrintings = true → ∀ v ∈ p.must, t.HasPrinting has r.card v) :
    ∀ v ∈ p.must, t.HasPrinting has r.card v := by
  intro v hv
  cases h : p.spansPrintings with
  | true => exact hspans h v hv
  | false =>
    obtain ⟨hmust, honeOf⟩ := eq_singleton_of_spansPrintings h hv
    -- so the value is the only one asked for, and the printing's own
    obtain ⟨w, hw, hhas⟩ := hown (List.ne_nil_of_mem (mem_included.2 (.inl hv)))
    rw [mem_included, hmust, honeOf, List.mem_singleton, or_iff_left List.not_mem_nil] at hw
    exact ⟨r, hr, rfl, hw ▸ hhas⟩

/-! ## Tests of a printing and of its card -/

variable {db : Relations} {s : Scope}

/-- The tests of a printing's own cell, where names stand for the cells of `values`. -/
theorem holds_ownTests {c : Column} {cell : String} (hcell : s.cell c = .text cell)
    {values : List String → List String} {own : String → Prop}
    (hvalues : ∀ names, cell ∈ values names ↔ ∃ v ∈ names, own v)
    (forbidden included : List String) :
    (∀ e ∈ ownTests c ((nonempty? forbidden).map values) ((nonempty? included).map values),
      e.Holds db s) ↔
      (∀ v ∈ forbidden, ¬own v) ∧ (included ≠ [] → ∃ v ∈ included, own v) := by
  unfold ownTests
  rw [List.forall_mem_append]
  refine and_congr ?_ ?_
  · cases forbidden with
    | nil => simp [nonempty?]
    | cons w ws =>
      change (∀ e ∈ [inTexts c (values (w :: ws)) true], e.Holds db s) ↔ _
      rw [List.forall_mem_singleton, holds_unlisted hcell, hvalues]
      simp only [not_exists, not_and]
  · cases included with
    | nil => simp [nonempty?]
    | cons w ws =>
      change (∀ e ∈ [inTexts c (values (w :: ws)) false], e.Holds db s) ↔ _
      rw [List.forall_mem_singleton, holds_listed, hcell, ← hvalues]
      simp

/-- The tests of a printing and the nested selections of its card ask together what the law
says. -/
theorem holds_spanning (hr : r ∈ t.printings) {es : List Entry} {own : List Expr} {key : Column}
    {covering members : Numbered (Select × Bool)}
    (hown : (∀ e ∈ own, e.Holds db s) ↔ (∀ v ∈ (split es).disallow, ¬has r v) ∧
      ((split es).included ≠ [] → ∃ v ∈ (split es).included, has r v))
    (hcovering : (split es).must ≠ [] → ∀ m, (cardTest key (covering.build m)).Holds db s ↔
      ∀ v ∈ (split es).must, t.HasPrinting has r.card v)
    (hmembers : ∀ m, (cardTest key (members.build m)).Holds db s ↔
      ∃ v ∈ (split es).oneOf, t.HasPrinting has r.card v) (n : Nat) :
    (Expr.allOf (own ++ (layout (given (split es).spansPrintings covering ++
        given (!(split es).must.isEmpty && !(split es).oneOf.isEmpty) members) n).map
          (cardTest key))).Holds db s ↔ t.AcceptsPrinting has es r := by
  have hspans : (split es).spansPrintings = true → (split es).must ≠ [] := by
    intro h hnil
    simp [Partition.spansPrintings, hnil] at h
  rw [holds_allOf, List.forall_mem_append, hown, layout_append, List.forall_mem_map,
    List.forall_mem_append, forall_layout_given, forall_layout_given, hmembers,
    acceptsPrinting_iff]
  constructor
  · rintro ⟨⟨hforbidden, hincluded⟩, hcover, hmember⟩
    refine ⟨hforbidden, hincluded, ?_, fun hmust honeOf => hmember (by simp [hmust, honeOf])⟩
    exact required_of_own hr hincluded fun h => (hcovering (hspans h) n).1 (hcover h)
  · rintro ⟨hforbidden, hincluded, hrequired, halternative⟩
    refine ⟨⟨hforbidden, hincluded⟩, fun h => (hcovering (hspans h) n).2 hrequired, fun h => ?_⟩
    exact halternative (by simp_all) (by simp_all)

end

/-! ## Sets, artists and rarities -/

/-- The value of a printing that a category tests, if a printing has exactly one. -/
def Category.ownValue? : Category → Option (PrintingRow → String)
  | .set => some PrintingRow.expansion
  | .artist => some PrintingRow.artist
  | .rarity => some PrintingRow.rarity
  | _ => none

section

variable {t : Tables} {c : Category} {value : PrintingRow → String}
  (hc : c.ownValue? = some value)
include hc

theorem cell_printingColumn (r : PrintingRow) :
    r.record.cell c.printingColumn = .text (value r) := by
  cases c <;> cases hc <;> rfl

/-- The table of the printings puts every card beside the values of its printings. -/
theorem relations_printing :
    t.relations.Pairs printingTable c.printingColumn
      (t.printings.map fun q => (q.card, value q)) := by
  have hrecords : t.relations printingTable = t.printings.map PrintingRow.record := rfl
  rw [Relations.Pairs, hrecords, List.map_map, List.map_map]
  apply List.map_congr_left
  intro r _
  exact Prod.ext rfl (cell_printingColumn hc r)

/-- The fragment of a category of printings admits what the law accepts. -/
theorem admits_printing {r : PrintingRow} (hr : r ∈ t.printings) (es : List Entry)
    (blocks : Blocks) (n : Nat) :
    ((fragmentOf ⟨aliasName 0, blocks⟩ c es).build n).Admits t.relations r.record ↔
      t.AcceptsPrinting (fun q v => value q = v) es r := by
  have hpairs := relations_printing (t := t) hc
  have hkey : (outerScope r.record).cell ⟨aliasName 0, "card_name"⟩ = .text r.card :=
    cell_outerScope _ _
  have hvalue : (outerScope r.record).cell ⟨aliasName 0, c.printingColumn⟩ = .text (value r) :=
    (cell_outerScope _ _).trans (cell_printingColumn hc r)
  have hmem : ∀ card v, (card, v) ∈ (t.printings.map fun q => (q.card, value q)) ↔
      t.HasPrinting (fun q v => value q = v) card v := by
    intro card v
    simp only [List.mem_map, Prod.mk.injEq, Tables.HasPrinting]
  have hown : (∀ e ∈ ownTests ⟨aliasName 0, c.printingColumn⟩ (nonempty? (split es).disallow)
      (nonempty? (split es).included), e.Holds t.relations (outerScope r.record)) ↔
        (∀ v ∈ (split es).disallow, ¬value r = v) ∧
          ((split es).included ≠ [] → ∃ v ∈ (split es).included, value r = v) := by
    -- names of values stand for themselves
    have hself : ∀ vs : List String, (nonempty? vs).map id = nonempty? vs :=
      fun vs => congrFun Option.map_id _
    rw [← hself, ← hself (split es).included]
    exact holds_ownTests hvalue (fun names => by simp) _ _
  have hfragment : fragmentOf ⟨aliasName 0, blocks⟩ c es =
      printingFragment (aliasName 0) c (split es) := by
    cases c <;> cases hc <;> rfl
  have hnodup : (split es).must.Nodup := nodup_eraseDups _
  rw [hfragment]
  refine holds_spanning hr hown (fun hmust m => ?_) (fun m => ?_) n
  · rw [holds_covering hpairs hnodup hmust hkey]
    simp only [hmem]
  · rw [holds_member hpairs hkey]
    simp only [hmem]

end

/-- **Sets, artists and rarities select by one law.** After any changes of the archive, any
values of one of these categories, over any catalog, select exactly the printings that have
no forbidden value; that have a required or an alternative one, if there are any; whose card
has every required value on some printing; and whose card has an alternative one, if values
are both required and alternative. -/
theorem printing_category_selects (changes : List Change) (catalog : Catalog) {c : Category}
    {value : PrintingRow → String} (hc : c.ownValue? = some value) {es : List Entry}
    (hne : es ≠ []) (hv : ∀ e ∈ es, e.isValue = true) :
    let t := (Database.after changes).tables
    t.Selects ⟨catalog, .ofEntries c es⟩ (t.AcceptsPrinting (fun q v => value q = v) es) := by
  intro t
  have hvocabulary : ∃ vocabulary, Search.vocabularyOf? c = some vocabulary := by
    cases c <;> cases hc <;> exact ⟨_, rfl⟩
  obtain ⟨vocabulary, hvocabulary⟩ := hvocabulary
  obtain ⟨fitting, hfit⟩ := exists_catalog_fits hvocabulary hv
  exact selects_ofEntries hne hfit (printings_nodup_after changes)
    fun r hr => admits_printing hc hr es _ 1

/-- A later set that has the same card once more. -/
def reprintSet : Value :=
  .object [("name", .text "Time Spiral"), ("code", .text "TSP"),
    ("releaseDate", .text "2006-10-06"), ("block", .text "Time Spiral"), ("cards", .list [
      .object [("name", .text "Asmira"), ("number", .int 121), ("rarity", .text "special"),
        ("types", .list [.text "Creature"])]])]

/-- Both sets are required, and a third one is forbidden. -/
def bothSets : List Entry :=
  [.value "Mirage" .mustInclude, .value "Visions" .disallow, .value "Time Spiral" .mustInclude]

theorem bothSets_select :
    Category.ownValue? .set = some PrintingRow.expansion ∧ bothSets ≠ [] ∧
      (∀ e ∈ bothSets, e.isValue = true) ∧
      ∃ keys, (Database.after [.insertSet wholeSet, .insertSet reprintSet]).tables.select
          ⟨⟨[], []⟩, .ofEntries .set bothSets⟩ = .ok keys ∧
        ⟨"Asmira", "Mirage", "210"⟩ ∈ keys ∧ ⟨"Asmira", "Time Spiral", "121"⟩ ∈ keys := by
  have hvalues : ∀ e ∈ bothSets, e.isValue = true := by decide
  have hne : bothSets ≠ [] := List.cons_ne_nil _ _
  obtain ⟨keys, hkeys, -, -, hlaw⟩ := printing_category_selects
    [.insertSet wholeSet, .insertSet reprintSet] ⟨[], []⟩ (c := .set) rfl hne hvalues
  have hlaw := fun r hr => (hlaw r hr).2
  refine ⟨rfl, hne, hvalues, keys, hkeys,
    hlaw ⟨"Asmira", "Mirage", "210", "rare", "", ""⟩ ?_ ?_,
    hlaw ⟨"Asmira", "Time Spiral", "121", "special", "", ""⟩ ?_ ?_⟩ <;> decide +kernel

end CardArchive
