import CardArchive.Proofs.Distinct
import CardArchive.Statement.Meaning
import Mathlib.Tactic

/-!
# What selections select

A selection goes through the rows of its table and of its joins, keeps those for which
its conditions hold, and lists a column of what it keeps, for each row or for each group
of rows. What a test against the listed cells says depends only on which cells there
are, not on their order or number.

## What this module delivers

* `keptScopes` and `mem_keptScopes`: the scopes that pass the conditions.
* `mem_cells_single`, `mem_cells_covering`: the cells listed for rows and for groups.
* `mem_firstCells_common`: the cells that several selections have in common.
* `distinctCount_congr`: only the cells themselves count.
-/

set_option autoImplicit false

namespace CardArchive

/-! ## Cells without order -/

theorem among_eq_true {c : Cell} {cells : List Cell} :
    among c cells = some true ↔ c ≠ .null ∧ c ∈ cells := by
  unfold among
  by_cases hempty : cells.isEmpty = true
  · rw [if_pos hempty]
    simp [List.isEmpty_iff.1 hempty]
  · rw [if_neg hempty]
    by_cases hnull : c = .null
    · simp [hnull]
    · rw [if_neg hnull]
      by_cases hmem : c ∈ cells
      · simp [hmem, hnull]
      · by_cases hunknown : Cell.null ∈ cells
        · simp [hmem, hunknown]
        · simp [hmem, hunknown]

/-- Lists of the same cells have the same number of different ones. -/
theorem distinctCount_congr {as bs : List Cell} (h : ∀ c, c ∈ as ↔ c ∈ bs) :
    distinctCount as = distinctCount bs := by
  unfold distinctCount
  apply List.Perm.length_eq
  rw [List.perm_ext_iff_of_nodup (nodup_eraseDups _) (nodup_eraseDups _)]
  intro c
  rw [List.mem_eraseDups, List.mem_eraseDups, List.mem_filter, List.mem_filter, h c]

/-! ## Kept scopes -/

section

variable {db : Relations} {scope : Scope} {table source : String} {joins : List Join}
  {conditions : List Expr}

/-- Whether a condition holds in a scope. -/
def Expr.Holds (db : Relations) (s : Scope) (e : Expr) : Prop :=
  (e.value db [] s).truth = some true

theorem holds_compare {s : Scope} {o : String} {l r : Expr} :
    (Expr.compare l o r).Holds db s ↔ compared o (l.value db [] s) (r.value db [] s) = some true := by
  rw [Expr.Holds, Expr.value, Cell.truth_ofTruth]

theorem all_truths_eq_true {s : Scope} {conditions : List Expr} :
    Truth.all (truths db [] s conditions) = some true ↔ ∀ e ∈ conditions, e.Holds db s := by
  rw [Truth.all_eq_true, truths_eq_map, List.forall_mem_map]
  rfl

theorem holds_allOf {s : Scope} {parts : List Expr} :
    (Expr.allOf parts).Holds db s ↔ ∀ e ∈ parts, e.Holds db s := by
  rw [Expr.Holds, Expr.value, Cell.truth_ofTruth, all_truths_eq_true]

/-- The scopes of a selection that pass its conditions. -/
def keptScopes (db : Relations) (scope : Scope) (table source : String) (joins : List Join)
    (conditions : List Expr) : List Scope :=
  (extendAll db ((db table).map fun r => scope.bind source r) joins).filter fun s =>
    Truth.all (truths db [] s conditions) == some true

theorem mem_keptScopes {s : Scope} :
    s ∈ keptScopes db scope table source joins conditions ↔
      s ∈ extendAll db ((db table).map fun r => scope.bind source r) joins ∧
        ∀ e ∈ conditions, e.Holds db s := by
  rw [keptScopes, List.mem_filter, beq_iff_eq, all_truths_eq_true]

/-- A selection without groups lists its columns in every scope that it keeps. -/
theorem rows_ungrouped {columns : List Column} :
    (Select.mk columns table source joins conditions [] none).rows db scope =
      (keptScopes db scope table source joins conditions).map fun s => columns.map s.cell := by
  rw [Select.rows]
  simp only [grouped_nil, passes, List.filter_true, List.map_map]
  rfl

/-- A selection of one column lists the cells of the scopes that it keeps. -/
theorem mem_cells_single {c : Column} {cell : Cell} :
    cell ∈ firstCells ((Select.mk [c] table source joins conditions [] none).rows db scope) ↔
      ∃ s ∈ keptScopes db scope table source joins conditions, s.cell c = cell := by
  rw [rows_ungrouped, firstCells, List.map_map, List.mem_map]
  rfl

/-! ## Rows in common -/

/-- The columns that a selection lists. -/
def Select.columns : Select → List Column
  | .mk columns _ _ _ _ _ _ => columns

theorem length_of_mem_rows {s : Select} {row : List Cell} (h : row ∈ s.rows db scope) :
    row.length = s.columns.length := by
  obtain ⟨columns, table, source, joins, conditions, groupBy, having⟩ := s
  rw [Select.rows] at h
  obtain ⟨g, -, rfl⟩ := List.mem_map.1 h
  rw [List.length_map]
  rfl

theorem mem_firstCells_of_length {rows : List (List Cell)} (h : ∀ row ∈ rows, row.length = 1)
    {cell : Cell} : cell ∈ firstCells rows ↔ [cell] ∈ rows := by
  rw [firstCells, List.mem_map]
  constructor
  · rintro ⟨row, hrow, rfl⟩
    obtain ⟨c, rfl⟩ := List.length_eq_one_iff.1 (h row hrow)
    exact hrow
  · intro hrow
    exact ⟨[cell], hrow, rfl⟩

/-- Selections of one column have in common the cells that each of them lists. -/
theorem mem_firstCells_common {parts : List (List (List Cell))} (hne : parts ≠ [])
    (h : ∀ rows ∈ parts, ∀ row ∈ rows, row.length = 1) {cell : Cell} :
    cell ∈ firstCells (common parts) ↔ ∀ rows ∈ parts, cell ∈ firstCells rows := by
  cases parts with
  | nil => exact absurd rfl hne
  | cons rows others =>
    cases others with
    | nil => rw [common_single, List.forall_mem_cons, and_iff_left (by simp)]
    | cons other others =>
      -- a row is in common if every list has it
      have hcommon : ∀ row, row ∈ common (rows :: other :: others) ↔
          ∀ o ∈ rows :: other :: others, row ∈ o := by
        intro row
        have hdef : common (rows :: other :: others) =
            (rows.filter fun r => (other :: others).all fun o => o.contains r).eraseDups := rfl
        rw [List.forall_mem_cons, hdef, List.mem_eraseDups, List.mem_filter, List.all_eq_true]
        simp only [List.contains_eq_mem, decide_eq_true_eq]
      have hsingle : ∀ row ∈ common (rows :: other :: others), row.length = 1 := fun row hrow =>
        h rows List.mem_cons_self row ((hcommon row).1 hrow rows List.mem_cons_self)
      rw [mem_firstCells_of_length hsingle, hcommon]
      exact forall₂_congr fun o ho => (mem_firstCells_of_length (h o ho)).symm

theorem rowsOfAll_eq_map (db : Relations) (scope : Scope) (ss : List Select) :
    rowsOfAll db scope ss = ss.map (Select.rows db scope) := by
  induction ss with
  | nil => rfl
  | cons s ss ih => rw [rowsOfAll, ih, List.map_cons]

/-! ## Groups -/

theorem agree_single {c : Column} {a b : Scope} : agree [c] a b = true ↔ a.cell c = b.cell c := by
  simp [agree]

theorem mem_of_mem_eraseDupsBy {α : Type} {r : α → α → Bool} {xs : List α} {a : α}
    (h : a ∈ xs.eraseDupsBy r) : a ∈ xs := by
  induction hn : xs.length using Nat.strong_induction_on generalizing xs with
  | _ n ih =>
    cases xs with
    | nil => exact h
    | cons x xs =>
      rw [List.eraseDupsBy_cons] at h
      rcases List.mem_cons.1 h with rfl | h
      · exact List.mem_cons_self
      · have hle := List.length_filter_le (fun b => r b x = false) xs
        rw [List.length_cons] at hn
        exact List.mem_cons_of_mem x (List.mem_of_mem_filter (ih _ (by omega) h rfl))

/-- Every item is represented by one that it agrees with. -/
theorem exists_mem_eraseDupsBy {α : Type} {r : α → α → Bool} (hrefl : ∀ a, r a a = true)
    {xs : List α} {a : α} (h : a ∈ xs) : ∃ b ∈ xs.eraseDupsBy r, r a b = true := by
  induction hn : xs.length using Nat.strong_induction_on generalizing xs with
  | _ n ih =>
    cases xs with
    | nil => cases h
    | cons x xs =>
      rw [List.eraseDupsBy_cons]
      by_cases hx : r a x = true
      · exact ⟨x, List.mem_cons_self, hx⟩
      · rcases List.mem_cons.1 h with rfl | h
        · exact absurd (hrefl a) hx
        · have hle := List.length_filter_le (fun b => r b x = false) xs
          rw [List.length_cons] at hn
          have hkept : a ∈ xs.filter fun b => r b x = false :=
            List.mem_filter.2 ⟨h, by simpa using hx⟩
          obtain ⟨b, hb, hab⟩ := ih _ (by omega) hkept rfl
          exact ⟨b, List.mem_cons_of_mem x hb, hab⟩

theorem ofText?_text (o : Operator) : Operator.ofText? o.text = some o := by
  cases o <;> decide

theorem compared_text (o : Operator) (l r : Cell) :
    compared o.text l r = (l.order? r).map o.holds := by
  rw [compared, ofText?_text]

/-- Cells are equal to a comparison exactly if they hold the same. -/
theorem compared_equal {a b : Cell} :
    compared Operator.equal.text a b = some true ↔ a ≠ .null ∧ a = b := by
  rw [compared_text]
  cases a <;> cases b <;> simp [Cell.order?, Operator.holds]

/-- Two integers are equal to a comparison exactly if they are. -/
theorem compared_integers {m n : Int} :
    compared Operator.equal.text (.integer m) (.integer n) = some true ↔ m = n := by
  rw [compared_equal]
  simp

/-- The condition on groups that asks for a number of different values. -/
theorem passes_count {c : Column} {n : Nat} {g : Group} :
    passes db g (some (.compare (.countDistinct c) Operator.equal.text
      (.literal (.integer n)))) = true ↔ distinctCount (g.2.map fun s => s.cell c) = n := by
  rw [passes, beq_iff_eq, Expr.value, Cell.truth_ofTruth, Expr.value, Expr.value, Literal.cell,
    compared_integers]
  exact Nat.cast_inj

/-- The cells of a selection with groups are those of the first scope of each group with
the given number of different values. -/
theorem mem_cells_grouped {key c : Column} {n : Nat} {cell : Cell} :
    cell ∈ firstCells ((Select.mk [key] table source joins conditions [key]
        (some (.compare (.countDistinct c) Operator.equal.text
          (.literal (.integer n))))).rows db scope) ↔
      ∃ s ∈ (keptScopes db scope table source joins conditions).eraseDupsBy (agree [key]),
        distinctCount (((keptScopes db scope table source joins conditions).filter
          (agree [key] s)).map fun s' => s'.cell c) = n ∧ s.cell key = cell := by
  rw [Select.rows, firstCells]
  simp only [grouped, List.isEmpty_cons, Bool.false_eq_true, if_false, List.mem_map,
    List.mem_filter, List.map_map]
  constructor
  · rintro ⟨g, ⟨⟨s, hs, rfl⟩, hg⟩, hcell⟩
    exact ⟨s, hs, passes_count.1 hg, hcell⟩
  · rintro ⟨s, hs, hg, hcell⟩
    exact ⟨_, ⟨⟨s, hs, rfl⟩, passes_count.2 hg⟩, hcell⟩

/-- Pairs of cells that occur together in scopes tell how many different values belong to
the group of a scope. -/
theorem distinctCount_group {key c : Column} {scopes : List Scope} {pairs : List (Cell × Cell)}
    (hpairs : ∀ k v, (∃ s ∈ scopes, s.cell key = k ∧ s.cell c = v) ↔ (k, v) ∈ pairs) (s : Scope) :
    distinctCount ((scopes.filter (agree [key] s)).map fun s' => s'.cell c) =
      distinctCount ((pairs.filter fun p => p.1 == s.cell key).map Prod.snd) := by
  apply distinctCount_congr
  intro v
  simp only [List.mem_map, List.mem_filter, agree_single, beq_iff_eq]
  constructor
  · rintro ⟨s', ⟨hs', hagree⟩, hv⟩
    exact ⟨(s.cell key, v), ⟨(hpairs _ v).1 ⟨s', hs', hagree.symm, hv⟩, rfl⟩, rfl⟩
  · rintro ⟨⟨k, v'⟩, ⟨hp, hk⟩, hv⟩
    obtain rfl : v' = v := hv
    obtain ⟨s', hs', hkey, hv⟩ := (hpairs k v').2 hp
    exact ⟨s', ⟨hs', (hkey.trans hk).symm⟩, hv⟩

/-- A selection with groups lists the cells whose group has the given number of different
values. Only the pairs of cells that occur together count. -/
theorem mem_cells_covering {key c : Column} {n : Nat} {cell : Cell} {pairs : List (Cell × Cell)}
    (hpairs : ∀ k v, (∃ s ∈ keptScopes db scope table source joins conditions,
      s.cell key = k ∧ s.cell c = v) ↔ (k, v) ∈ pairs) :
    cell ∈ firstCells ((Select.mk [key] table source joins conditions [key]
        (some (.compare (.countDistinct c) Operator.equal.text
          (.literal (.integer n))))).rows db scope) ↔
      (∃ v, (cell, v) ∈ pairs) ∧
        distinctCount ((pairs.filter fun p => p.1 == cell).map Prod.snd) = n := by
  rw [mem_cells_grouped]
  constructor
  · rintro ⟨s, hs, hn, rfl⟩
    refine ⟨⟨s.cell c, (hpairs _ _).1 ⟨s, mem_of_mem_eraseDupsBy hs, rfl, rfl⟩⟩, ?_⟩
    rw [← distinctCount_group hpairs s]
    exact hn
  · rintro ⟨⟨v, hv⟩, hn⟩
    obtain ⟨s, hs, hcell, -⟩ := (hpairs cell v).2 hv
    -- the scope with the cell may not be the first of its group, but it agrees with that one
    obtain ⟨s', hs', hagree⟩ :=
      exists_mem_eraseDupsBy (fun a => agree_single.2 (rfl : a.cell key = a.cell key)) hs
    have hcell' : s'.cell key = cell := (agree_single.1 hagree).symm.trans hcell
    refine ⟨s', hs', ?_, hcell'⟩
    rw [distinctCount_group hpairs s', hcell']
    exact hn

end

end CardArchive
