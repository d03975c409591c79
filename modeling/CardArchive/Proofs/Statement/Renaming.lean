import CardArchive.Statement.Meaning
import Mathlib.Tactic

/-!
# Aliases renamed

The aliases of a statement are names of no importance. Where every alias is renamed, and
different ones stay different, a tree means in a scope what the tree before meant in the
scope that looks its aliases up under their new names. A nested query under other aliases
therefore lists the same cells.

## What this module delivers

* `Expr.renamed`, `Select.renamed`, `Query.renamed`: trees under other aliases.
* `Scope.along`: the scope that looks aliases up under their new names.
* `Expr.value_renamed`, `Select.rows_renamed`, `Query.rows_renamed`: renaming keeps the
  meaning.
-/

set_option autoImplicit false

namespace CardArchive

/-! ## Renamed trees -/

/-- The column under another alias. -/
def Column.renamed (ρ : String → String) (c : Column) : Column := ⟨ρ c.source, c.name⟩

mutual

/-- A value or a condition under other aliases. -/
def Expr.renamed (ρ : String → String) : Expr → Expr
  | .column c => .column (c.renamed ρ)
  | .literal l => .literal l
  | .countDistinct c => .countDistinct (c.renamed ρ)
  | .compare l o r => .compare (l.renamed ρ) o (r.renamed ρ)
  | .like c w negated => .like (c.renamed ρ) w negated
  | .inValues c vs negated => .inValues (c.renamed ρ) vs negated
  | .inQuery c q negated => .inQuery (c.renamed ρ) (q.renamed ρ) negated
  | .allOf parts => .allOf (allRenamed ρ parts)
  | .anyOf parts => .anyOf (allRenamed ρ parts)
  | .coalesce v f => .coalesce (v.renamed ρ) (f.renamed ρ)

/-- Values or conditions under other aliases. -/
def allRenamed (ρ : String → String) : List Expr → List Expr
  | [] => []
  | e :: es => e.renamed ρ :: allRenamed ρ es

/-- A join under other aliases. -/
def Join.renamed (ρ : String → String) : Join → Join
  | .mk table source condition outer => .mk table (ρ source) (condition.renamed ρ) outer

/-- Joins under other aliases. -/
def joinsRenamed (ρ : String → String) : List Join → List Join
  | [] => []
  | j :: js => j.renamed ρ :: joinsRenamed ρ js

/-- A condition on groups under other aliases. -/
def havingRenamed (ρ : String → String) : Option Expr → Option Expr
  | none => none
  | some e => some (e.renamed ρ)

/-- A selection under other aliases. -/
def Select.renamed (ρ : String → String) : Select → Select
  | .mk columns table source joins conditions groupBy having =>
    .mk (columns.map (Column.renamed ρ)) table (ρ source) (joinsRenamed ρ joins)
      (allRenamed ρ conditions) (groupBy.map (Column.renamed ρ)) (havingRenamed ρ having)

/-- Selections under other aliases. -/
def selectsRenamed (ρ : String → String) : List Select → List Select
  | [] => []
  | s :: ss => s.renamed ρ :: selectsRenamed ρ ss

/-- A query under other aliases. -/
def Query.renamed (ρ : String → String) : Query → Query
  | .select s => .select (s.renamed ρ)
  | .intersect parts => .intersect (selectsRenamed ρ parts)

end

theorem allRenamed_eq_map (ρ : String → String) (es : List Expr) :
    allRenamed ρ es = es.map (Expr.renamed ρ) := by
  induction es with
  | nil => rfl
  | cons e es ih => rw [allRenamed, ih, List.map_cons]

theorem joinsRenamed_eq_map (ρ : String → String) (js : List Join) :
    joinsRenamed ρ js = js.map (Join.renamed ρ) := by
  induction js with
  | nil => rfl
  | cons j js ih => rw [joinsRenamed, ih, List.map_cons]

/-! ## Scopes along a renaming -/

/-- The scope that looks every alias up under its new name. -/
def Scope.along (ρ : String → String) (scope : Scope) : Scope := fun a => scope (ρ a)

theorem Scope.cell_renamed (ρ : String → String) (scope : Scope) (c : Column) :
    scope.cell (c.renamed ρ) = (scope.along ρ).cell c := rfl

theorem agree_renamed (ρ : String → String) (columns : List Column) (a b : Scope) :
    agree (columns.map (Column.renamed ρ)) a b = agree columns (a.along ρ) (b.along ρ) := by
  rw [agree, List.all_map]
  rfl

theorem eraseDupsBy_map {α β : Type} (f : α → β) (r : β → β → Bool) (xs : List α) :
    (xs.map f).eraseDupsBy r = (xs.eraseDupsBy fun a b => r (f a) (f b)).map f := by
  induction hn : xs.length using Nat.strong_induction_on generalizing xs with
  | _ n ih =>
    cases xs with
    | nil => rfl
    | cons x xs =>
      -- what is left after the first item is no longer than the rest of the list
      have hle := List.length_filter_le ((fun b => decide (r b (f x) = false)) ∘ f) xs
      rw [List.length_cons] at hn
      rw [List.map_cons, List.eraseDupsBy_cons, List.eraseDupsBy_cons, List.map_cons,
        List.filter_map]
      exact congrArg (f x :: ·) (ih _ (by omega) _ rfl)

/-- A group seen along a renaming. -/
def Group.along (ρ : String → String) (g : Group) : Group :=
  (g.1.along ρ, g.2.map (Scope.along ρ))

theorem grouped_renamed (ρ : String → String) (columns : List Column) (scopes : List Scope) :
    (grouped (columns.map (Column.renamed ρ)) scopes).map (Group.along ρ) =
      grouped columns (scopes.map (Scope.along ρ)) := by
  unfold grouped
  rw [List.isEmpty_map]
  by_cases hempty : columns.isEmpty = true
  · rw [if_pos hempty, if_pos hempty, List.map_map, List.map_map]
    rfl
  · rw [if_neg hempty, if_neg hempty, eraseDupsBy_map, List.map_map, List.map_map]
    have hagree : agree (columns.map (Column.renamed ρ)) =
        fun a b => agree columns (a.along ρ) (b.along ρ) := by
      funext a b
      exact agree_renamed ρ columns a b
    rw [hagree]
    apply List.map_congr_left
    intro s _
    rw [Function.comp_apply, Function.comp_apply, List.filter_map]
    rfl

section

variable {ρ : String → String} (hρ : Function.Injective ρ)
include hρ

/-- Different aliases stay different, so a record bound under a new name is seen under
the old one, and no other is hidden by it. -/
theorem Scope.along_bind (scope : Scope) (source : String) (r : Record) :
    (scope.bind (ρ source) r).along ρ = (scope.along ρ).bind source r := by
  funext a
  unfold Scope.along
  by_cases h : a = source
  · rw [h, Scope.bind_self, Scope.bind_self]
  · rw [Scope.bind_ne (fun hsame => h (hρ hsame)), Scope.bind_ne h]

theorem map_bind_along (records : List Record) (scope : Scope) (source : String) :
    (records.map fun r => scope.bind (ρ source) r).map (Scope.along ρ) =
      records.map fun r => (scope.along ρ).bind source r := by
  rw [List.map_map]
  apply List.map_congr_left
  intro r _
  exact Scope.along_bind hρ scope source r

theorem joined_renamed (records : List Record) (source : String) {test test' : Scope → Truth}
    (htest : ∀ s, test' s = test (s.along ρ)) (outer : Bool) (scope : Scope) :
    (joined records (ρ source) test' outer scope).map (Scope.along ρ) =
      joined records source test outer (scope.along ρ) := by
  -- both tests pick the same records
  have hpulled : (fun s => test' s == some true) =
      (fun s => test s == some true) ∘ Scope.along ρ := by
    funext s
    rw [htest]
    rfl
  have hfound : ((records.map fun r => scope.bind (ρ source) r).filter
      fun s => test' s == some true).map (Scope.along ρ) =
      (records.map fun r => (scope.along ρ).bind source r).filter
        fun s => test s == some true := by
    rw [hpulled, ← List.filter_map, map_bind_along hρ]
  simp only [joined]
  rw [← hfound, List.isEmpty_map]
  split
  · -- the record that stands for none is bound under the new name as well
    rw [List.map_singleton, Scope.along_bind hρ]
  · rfl

end

/-! ## Renaming keeps the meaning -/

variable {ρ : String → String}

mutual

/-- A renamed condition says in a scope what the condition says along the renaming. -/
theorem Expr.value_renamed (hρ : Function.Injective ρ) (db : Relations)
    (members : List Scope) (scope : Scope) :
    ∀ e : Expr, (e.renamed ρ).value db members scope =
      e.value db (members.map (Scope.along ρ)) (scope.along ρ)
  | .column c => rfl
  | .literal l => rfl
  | .countDistinct c => by
    rw [Expr.renamed, Expr.value, Expr.value, List.map_map]
    rfl
  | .compare l o r => by
    rw [Expr.renamed, Expr.value, Expr.value, Expr.value_renamed hρ db members scope l,
      Expr.value_renamed hρ db members scope r]
  | .like c w negated => rfl
  | .inValues c vs negated => rfl
  | .inQuery c q negated => by
    -- the nested query is read in the scope of the condition
    rw [Expr.renamed, Expr.value, Expr.value, Query.rows_renamed hρ db scope q, Scope.cell_renamed]
  | .allOf parts => by
    rw [Expr.renamed, Expr.value, Expr.value, truths_renamed hρ db members scope parts]
  | .anyOf parts => by
    rw [Expr.renamed, Expr.value, Expr.value, truths_renamed hρ db members scope parts]
  | .coalesce v f => by
    rw [Expr.renamed, Expr.value, Expr.value, Expr.value_renamed hρ db members scope v,
      Expr.value_renamed hρ db members scope f]

theorem truths_renamed (hρ : Function.Injective ρ) (db : Relations)
    (members : List Scope) (scope : Scope) :
    ∀ es : List Expr, truths db members scope (allRenamed ρ es) =
      truths db (members.map (Scope.along ρ)) (scope.along ρ) es
  | [] => rfl
  | e :: es => by
    rw [allRenamed, truths, truths, Expr.value_renamed hρ db members scope e,
      truths_renamed hρ db members scope es]

theorem Join.extend_renamed (hρ : Function.Injective ρ) (db : Relations) (scopes : List Scope) :
    ∀ j : Join, ((j.renamed ρ).extend db scopes).map (Scope.along ρ) =
      j.extend db (scopes.map (Scope.along ρ))
  | .mk table source condition outer => by
    have htest : ∀ s, ((condition.renamed ρ).value db [] s).truth =
        (condition.value db [] (s.along ρ)).truth := by
      intro s
      rw [Expr.value_renamed hρ db [] s condition]
      rfl
    rw [Join.renamed, Join.extend, Join.extend, List.map_flatMap, List.flatMap_map]
    apply List.flatMap_congr
    intro s _
    exact joined_renamed hρ _ _ htest outer s

theorem extendAll_renamed (hρ : Function.Injective ρ) (db : Relations) (scopes : List Scope) :
    ∀ js : List Join, (extendAll db scopes (joinsRenamed ρ js)).map (Scope.along ρ) =
      extendAll db (scopes.map (Scope.along ρ)) js
  | [] => rfl
  | j :: js => by
    rw [joinsRenamed, extendAll, extendAll, extendAll_renamed hρ db _ js,
      Join.extend_renamed hρ db scopes j]

theorem passes_renamed (hρ : Function.Injective ρ) (db : Relations) (g : Group) :
    ∀ having : Option Expr, passes db g (havingRenamed ρ having) =
      passes db (Group.along ρ g) having
  | none => rfl
  | some e => by
    rw [havingRenamed, passes, passes, Expr.value_renamed hρ db g.2 g.1 e]
    rfl

/-- A renamed selection lists what the selection lists along the renaming. -/
theorem Select.rows_renamed (hρ : Function.Injective ρ) (db : Relations) (scope : Scope) :
    ∀ s : Select, (s.renamed ρ).rows db scope = s.rows db (scope.along ρ)
  | .mk columns table source joins conditions groupBy having => by
    -- the scopes that pass, then their groups, then the columns of each group
    have hkept : ((extendAll db ((db table).map fun r => scope.bind (ρ source) r)
        (joinsRenamed ρ joins)).filter fun s =>
          Truth.all (truths db [] s (allRenamed ρ conditions)) == some true).map (Scope.along ρ) =
        (extendAll db ((db table).map fun r => (scope.along ρ).bind source r) joins).filter
          fun s => Truth.all (truths db [] s conditions) == some true := by
      have hpulled : (fun s => Truth.all (truths db [] s (allRenamed ρ conditions)) == some true) =
          (fun s => Truth.all (truths db [] s conditions) == some true) ∘ Scope.along ρ := by
        funext s
        rw [truths_renamed hρ db [] s conditions]
        rfl
      rw [hpulled, ← List.filter_map, extendAll_renamed hρ db _ joins, map_bind_along hρ]
    have hpasses : (fun g => passes db g (havingRenamed ρ having)) =
        (fun g => passes db g having) ∘ Group.along ρ := by
      funext g
      exact passes_renamed hρ db g having
    rw [Select.renamed, Select.rows, Select.rows, ← hkept, ← grouped_renamed, List.filter_map,
      List.map_map, hpasses]
    apply List.map_congr_left
    intro g _
    rw [List.map_map]
    rfl

theorem rowsOfAll_renamed (hρ : Function.Injective ρ) (db : Relations) (scope : Scope) :
    ∀ ss : List Select, rowsOfAll db scope (selectsRenamed ρ ss) =
      rowsOfAll db (scope.along ρ) ss
  | [] => rfl
  | s :: ss => by
    rw [selectsRenamed, rowsOfAll, rowsOfAll, Select.rows_renamed hρ db scope s,
      rowsOfAll_renamed hρ db scope ss]

/-- A renamed query lists what the query lists along the renaming. -/
theorem Query.rows_renamed (hρ : Function.Injective ρ) (db : Relations) (scope : Scope) :
    ∀ q : Query, (q.renamed ρ).rows db scope = q.rows db (scope.along ρ)
  | .select s => by
    rw [Query.renamed, Query.rows, Query.rows, Select.rows_renamed hρ db scope s]
  | .intersect parts => by
    rw [Query.renamed, Query.rows, Query.rows, rowsOfAll_renamed hρ db scope parts]

end

end CardArchive
