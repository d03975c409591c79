import CardArchive.Proofs.Filter.Moving
import CardArchive.Proofs.Filter.Scoped
import CardArchive.Proofs.Statement.Reading
import CardArchive.Proofs.Statement.Selection
import CardArchive.Store.Matches

/-!
# Printings that fragments admit

A fragment admits a printing if the printing's card is among the cards that it selects,
or if the printing passes its condition. The number at which the fragment starts does not
matter, as its aliases move with it and the outer printing stays. The statement of some
filters selects the printings that the fragments of all active categories admit.

## What this module delivers

* `outerScope` and `Fragment.Admits`: what a fragment says about a printing.
* `admits_build`: the same at every number.
* `holds_outerConditions`: the outer conditions of several fragments.
* `select_of_fit`, `select_of_active`: the printings that filters select.
-/

set_option autoImplicit false

namespace CardArchive

/-! ## Fragments and printings -/

/-- The scope in which a printing stands under the outer alias. -/
def outerScope (r : Record) : Scope := Scope.empty.bind (aliasName 0) r

/-- The cell of a printing under the outer alias. -/
theorem cell_outerScope (r : Record) (column : String) :
    (outerScope r).cell ⟨aliasName 0, column⟩ = r.cell column := by
  rw [Scope.cell, outerScope, Scope.bind_self]

/-- The outer alias does not move, so the outer printing is seen along moved aliases. -/
theorem outerScope_along (k : Nat) (r : Record) :
    (outerScope r).along (moved k) = outerScope r := by
  have h := Scope.along_bind (moved_injective k) Scope.empty (aliasName 0) r
  rw [moved_outer] at h
  exact h

/-- What a fragment says about a printing: its card is selected, or it passes the
condition. -/
def Fragment.Admits (db : Relations) (r : Record) : Fragment → Prop
  | .cards s => among (r.cell "card_name") (firstCells (s.rows db (outerScope r))) = some true
  | .printings e => e.Holds db (outerScope r)

section

variable {db : Relations} {r : Record}

/-- A selection of cards admits a printing exactly if it lists the printing's card. -/
theorem admits_cards {s : Select} {p : PrintingRow} :
    (Fragment.cards s).Admits db p.record ↔
      .text p.card ∈ firstCells (s.rows db (outerScope p.record)) := by
  have hcard : p.record.cell "card_name" = .text p.card := rfl
  rw [Fragment.Admits, hcard, among_eq_true]
  exact and_iff_right (by simp)

/-- Moved aliases do not change what a fragment says about a printing. -/
theorem admits_renamed (k : Nat) (x : Fragment) :
    (x.renamed (moved k)).Admits db r ↔ x.Admits db r := by
  cases x with
  | cards s =>
    rw [Fragment.renamed, Fragment.Admits, Fragment.Admits,
      Select.rows_renamed (moved_injective k), outerScope_along]
  | printings e =>
    rw [Fragment.renamed, Fragment.Admits, Fragment.Admits, Expr.Holds, Expr.Holds,
      Expr.value_renamed (moved_injective k), outerScope_along]
    rfl

/-- A fragment says the same about a printing wherever its numbers start. -/
theorem admits_build (blocks : Blocks) (c : Category) (es : List Entry) {n : Nat} (hn : 1 ≤ n) :
    ((fragmentOf ⟨aliasName 0, blocks⟩ c es).build n).Admits db r ↔
      ((fragmentOf ⟨aliasName 0, blocks⟩ c es).build 1).Admits db r := by
  -- the fragment at `n` is the one at one, further on by the difference
  obtain ⟨k, rfl⟩ := Nat.exists_eq_add_of_le hn
  rw [fragmentOf_moves blocks c es 1 k (Nat.le_refl 1), admits_renamed]

/-- All active fragments of some filters admit a printing exactly if each of them does so
on its own. -/
theorem admits_active {blocks : Blocks} {f : Filters} :
    (∀ x ∈ activeFragments blocks f, x.Admits db r) ↔
      ∀ c ∈ f.active,
        ((fragmentOf ⟨aliasName 0, blocks⟩ c (f.entries c)).build 1).Admits db r := by
  rw [activeFragments, fragmentsOf]
  exact forall_layout fun c _ m hm _ => admits_build blocks c (f.entries c) hm

/-! ## Outer conditions -/

/-- A fragment that selects cards selects one column. -/
def Fragment.IsSingle : Fragment → Prop
  | .cards s => s.columns.length = 1
  | .printings _ => True

/-- No fragment selects more than one column. -/
theorem columns_build (ctx : Context) (c : Category) (es : List Entry) {n : Nat} {s : Select}
    (h : (fragmentOf ctx c es).build n = .cards s) : s.columns.length ≤ 1 := by
  have hnumbers : ∀ sources conditions, (selectNumbers sources conditions).columns.length ≤ 1 := by
    intro sources conditions
    cases sources with
    | nil => exact Nat.zero_le 1
    | cons base rest => exact Nat.le_refl 1
  cases c with
  | stat | statVersusStat =>
    cases h
    exact hnumbers _ _
  | set | block | artist | rarity | flavorText => cases h
  | name | text | color | colorIdentity | supertype | type | subtype | manaType =>
    cases h
    exact Nat.le_refl 1

theorem isSingle_build {catalog : Catalog} {ctx : Context} {c : Category} {es : List Entry}
    (hne : es ≠ []) (hfit : ∀ e ∈ es, e.Fits catalog c) (n : Nat) :
    ((fragmentOf ctx c es).build n).IsSingle := by
  have hscoped := (fragmentOf_scoped ctx hne hfit).reads n
  have hcolumns : ∀ s, (fragmentOf ctx c es).build n = .cards s → s.columns.length ≤ 1 :=
    fun s h => columns_build ctx c es h
  -- at most one column by its form, and at least one as it is scoped
  generalize (fragmentOf ctx c es).build n = x at hscoped hcolumns
  cases x with
  | printings e => trivial
  | cards s =>
    have hfew := hcolumns s rfl
    obtain ⟨columns, table, source, joins, conditions, groupBy, having⟩ := s
    have hsome : columns ≠ [] := hscoped.2.1
    have hpositive := List.length_pos_iff.2 hsome
    exact Nat.le_antisymm hfew hpositive

/-- The test of the card against what several selections have in common is the test
against each of them. -/
theorem holds_intersect {ss : List Select} (hne : ss ≠ [])
    (hsingle : ∀ s ∈ ss, s.columns.length = 1) :
    (Expr.inQuery ⟨aliasName 0, "card_name"⟩ (.intersect ss) false).Holds db (outerScope r) ↔
      ∀ s ∈ ss, (Fragment.cards s).Admits db r := by
  have hrows : rowsOfAll db (outerScope r) ss ≠ [] := by
    rw [rowsOfAll_eq_map]
    exact fun h => hne (List.map_eq_nil_iff.1 h)
  have hlength : ∀ rows ∈ rowsOfAll db (outerScope r) ss, ∀ row ∈ rows, row.length = 1 := by
    intro rows hrows row hrow
    rw [rowsOfAll_eq_map] at hrows
    obtain ⟨s, hs, rfl⟩ := List.mem_map.1 hrows
    rw [length_of_mem_rows hrow]
    exact hsingle s hs
  rw [Expr.Holds, Expr.value, Cell.truth_ofTruth, Query.rows, cell_outerScope]
  change among _ _ = some true ↔ _
  -- each selection has one column, so what is in common are cells
  rw [among_eq_true, mem_firstCells_common hrows hlength, rowsOfAll_eq_map, List.forall_mem_map]
  simp only [Fragment.Admits, among_eq_true]
  constructor
  · rintro ⟨hnull, hall⟩ s hs
    exact ⟨hnull, hall s hs⟩
  · intro hall
    obtain ⟨s, hs⟩ := List.exists_mem_of_ne_nil _ hne
    exact ⟨(hall s hs).1, fun s hs => (hall s hs).2⟩

/-- The outer conditions hold for a printing exactly if every fragment admits it. -/
theorem holds_outerConditions {fs : List Fragment} (hsingle : ∀ x ∈ fs, x.IsSingle) :
    (∀ e ∈ outerConditions (aliasName 0) fs, e.Holds db (outerScope r)) ↔
      ∀ x ∈ fs, x.Admits db r := by
  -- without a selection of cards there is no test of the card
  have hcards : (∀ e ∈ (if (cardSelections fs).isEmpty then []
      else [.inQuery ⟨aliasName 0, "card_name"⟩ (.intersect (cardSelections fs)) false]),
      Expr.Holds db (outerScope r) e) ↔
        ∀ s ∈ cardSelections fs, (Fragment.cards s).Admits db r := by
    by_cases hempty : (cardSelections fs).isEmpty = true
    · rw [if_pos hempty, List.isEmpty_iff.1 hempty]
      simp
    · rw [if_neg hempty, List.forall_mem_singleton]
      apply holds_intersect
      · exact fun h => hempty (List.isEmpty_iff.2 h)
      · exact fun s hs => hsingle _ (mem_cardSelections.1 hs)
  rw [outerConditions, List.forall_mem_append, hcards]
  constructor
  · rintro ⟨hall, hprintings⟩ x hx
    cases x with
    | cards s => exact hall s (mem_cardSelections.2 hx)
    | printings e => exact hprintings e (mem_printingConditions.2 hx)
  · intro hall
    exact ⟨fun s hs => hall _ (mem_cardSelections.1 hs),
      fun e he => hall _ (mem_printingConditions.1 he)⟩

end

/-! ## Selected printings -/

/-- Whether the conditions of a statement hold for a printing. -/
def PrintingRow.passes (t : Tables) (conditions : List Expr) (r : PrintingRow) : Bool :=
  Truth.all (truths t.relations [] (outerScope r.record) conditions) == some true

theorem passes_eq_true {t : Tables} {conditions : List Expr} {r : PrintingRow} :
    r.passes t conditions = true ↔
      ∀ e ∈ conditions, e.Holds t.relations (outerScope r.record) := by
  rw [PrintingRow.passes, beq_iff_eq, all_truths_eq_true]

/-- The outer selection lists the keys of the printings that pass its conditions, in the
order in which they are stored. -/
theorem rows_selectPrintings (t : Tables) (conditions : List Expr) :
    ((selectPrintings (aliasName 0) conditions).rows t.relations Scope.empty).map
        PrintingKey.ofCells =
      (t.printings.filter (PrintingRow.passes t conditions)).map PrintingRow.key := by
  have hstored : t.relations printingTable = t.printings.map PrintingRow.record := rfl
  rw [selectPrintings, rows_ungrouped, keptScopes, extendAll, hstored, List.map_map, List.map_map,
    List.filter_map, List.map_map]
  rfl

/-- Filters that their categories can hold select, in the order in which they are stored,
the printings that the fragment of every active category admits. -/
theorem select_of_fit {catalog : Catalog} {s : Search} (hfit : s.filters.Fit catalog)
    (t : Tables) :
    ∃ p : PrintingRow → Bool, t.select s = .ok ((t.printings.filter p).map PrintingRow.key) ∧
      ∀ r, p r = true ↔ ∀ c ∈ s.filters.active,
        ((fragmentOf ⟨aliasName 0, s.catalog.blocks⟩ c (s.filters.entries c)).build 1).Admits
          t.relations r.record := by
  have hstatement := statement_eq s.catalog.blocks hfit
  obtain ⟨text, htext, -⟩ := text_readable (statement_scoped s.catalog.blocks hfit)
  refine ⟨PrintingRow.passes t (outerConditions (aliasName 0)
    (activeFragments s.catalog.blocks s.filters)), ?_, ?_⟩
  · have hwritten : s.written = .ok (selectPrintings (aliasName 0)
        (outerConditions (aliasName 0) (activeFragments s.catalog.blocks s.filters))) := by
      rw [Search.written, Search.statement?, hstatement]
      change (do
        let _ ← (Select.text? _).mapError Failure.statement
        pure _) = _
      rw [htext]
      rfl
    rw [Tables.select, hwritten, ← rows_selectPrintings]
    rfl
  · intro r
    have hsingle : ∀ x ∈ activeFragments s.catalog.blocks s.filters, x.IsSingle := by
      intro x hx
      obtain ⟨y, hy, m, -, rfl⟩ := mem_layout hx
      obtain ⟨c, hc, rfl⟩ := List.mem_map.1 hy
      exact isSingle_build (mem_active.1 hc) (fun e he => fits_of_mem_entries hfit he) m
    rw [passes_eq_true, holds_outerConditions hsingle, admits_active]

/-- With one active category, they are those that its fragment admits. -/
theorem select_of_active {catalog : Catalog} {s : Search} (hfit : s.filters.Fit catalog)
    {c : Category} (hactive : s.filters.active = [c]) (t : Tables) :
    ∃ p : PrintingRow → Bool, t.select s = .ok ((t.printings.filter p).map PrintingRow.key) ∧
      ∀ r, p r = true ↔
        ((fragmentOf ⟨aliasName 0, s.catalog.blocks⟩ c (s.filters.entries c)).build 1).Admits
          t.relations r.record := by
  obtain ⟨p, hselect, hp⟩ := select_of_fit hfit t
  refine ⟨p, hselect, fun r => ?_⟩
  rw [hp r, hactive, List.forall_mem_singleton]

end CardArchive
