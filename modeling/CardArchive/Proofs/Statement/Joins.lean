import CardArchive.Proofs.Statement.Selection

/-!
# What joins put under aliases

Each join of a selection looks at the record of the first table and at the records of its
own. What stands under its alias afterwards is therefore a matter of that one record,
however many joins came before. An inner join loses the records that it has no match
for; an outer join with at most one match neither loses nor multiplies them.

## What this module delivers

* `Join.Puts` and `Join.IsLocal`: what a join can put beside a record of the first table.
* `mem_extendAll`: the scopes after joins with a first table.
* `isLocal_equal`, `puts_equal`: joins on equal columns.
* `Join.Completes` and `extendAll_eq_map`: outer joins with at most one match.
-/

set_option autoImplicit false

namespace CardArchive

/-! ## Joins with a first table -/

/-- The alias of a join. -/
def Join.source : Join → String
  | .mk _ source _ _ => source

/-- The scope in which two records stand under two aliases. -/
def Scope.pair (base source : String) (b r : Record) : Scope :=
  (Scope.empty.bind base b).bind source r

theorem Scope.pair_base {base source : String} (hne : base ≠ source) (b r : Record) :
    Scope.pair base source b r base = b := by
  rw [Scope.pair, Scope.bind_ne hne, Scope.bind_self]

theorem Scope.pair_source (base source : String) (b r : Record) :
    Scope.pair base source b r source = r := Scope.bind_self _ _ _

/-- What a join can put under its alias beside a record of the first table: a record that
matches, or nothing if the join is an outer one and no record matches. -/
def Join.Puts (db : Relations) (base : String) (b r : Record) : Join → Prop
  | .mk table source condition outer =>
    (r ∈ db table ∧ condition.Holds db (.pair base source b r)) ∨
      (outer = true ∧ (∀ r' ∈ db table, ¬condition.Holds db (.pair base source b r')) ∧ r = [])

/-- The condition of a join looks at the first table and at its own one only. -/
def Join.IsLocal (db : Relations) (base : String) : Join → Prop
  | .mk _ source condition _ => base ≠ source ∧ ∀ s s' : Scope, s base = s' base →
      s source = s' source → (condition.Holds db s ↔ condition.Holds db s')

theorem holds_bind {db : Relations} {base table source : String} {condition : Expr} {outer : Bool}
    (h : (Join.mk table source condition outer).IsLocal db base) (s : Scope) (r : Record) :
    condition.Holds db (s.bind source r) ↔ condition.Holds db (.pair base source (s base) r) := by
  obtain ⟨hne, hlocal⟩ := h
  apply hlocal
  · rw [Scope.pair_base hne, Scope.bind_ne hne]
  · rw [Scope.pair_source, Scope.bind_self]

/-- The scopes that match, with each record under the alias of the join. -/
theorem mem_matching {db : Relations} {base table source : String} {condition : Expr} {outer : Bool}
    (h : (Join.mk table source condition outer).IsLocal db base) {s t : Scope} :
    t ∈ ((db table).map fun r => s.bind source r).filter
        (fun s => (condition.value db [] s).truth == some true) ↔
      ∃ r ∈ db table, condition.Holds db (.pair base source (s base) r) ∧
        t = s.bind source r := by
  rw [List.mem_filter, List.mem_map, beq_iff_eq]
  constructor
  · rintro ⟨⟨r, hr, rfl⟩, ht⟩
    exact ⟨r, hr, (holds_bind h s r).1 ht, rfl⟩
  · rintro ⟨r, hr, hrecord, rfl⟩
    exact ⟨⟨r, hr, rfl⟩, (holds_bind h s r).2 hrecord⟩

theorem mem_joined {db : Relations} {base table source : String} {condition : Expr} {outer : Bool}
    (h : (Join.mk table source condition outer).IsLocal db base) {s t : Scope} :
    t ∈ joined (db table) source (fun s => (condition.value db [] s).truth) outer s ↔
      ∃ r, (Join.mk table source condition outer).Puts db base (s base) r ∧
        t = s.bind source r := by
  unfold joined
  by_cases hlost : (outer && (((db table).map fun r => s.bind source r).filter
      (fun s => (condition.value db [] s).truth == some true)).isEmpty) = true
  · obtain ⟨houter, hempty⟩ := Bool.and_eq_true_iff.1 hlost
    -- no record matches, so an outer join puts none under its alias
    have hnone : ∀ r ∈ db table, ¬condition.Holds db (.pair base source (s base) r) := by
      intro r hr hrecord
      have hmem := (mem_matching h).2 ⟨r, hr, hrecord, rfl⟩
      rw [List.isEmpty_iff.1 hempty] at hmem
      cases hmem
    simp only [hlost, if_true, List.mem_singleton]
    constructor
    · rintro rfl
      exact ⟨[], .inr ⟨houter, hnone, rfl⟩, rfl⟩
    · rintro ⟨r, ⟨hr, hrecord⟩ | ⟨-, -, rfl⟩, rfl⟩
      · exact absurd hrecord (hnone r hr)
      · rfl
  · simp only [hlost, Bool.false_eq_true, if_false]
    rw [mem_matching h]
    constructor
    · rintro ⟨r, hr, hrecord, rfl⟩
      exact ⟨r, .inl ⟨hr, hrecord⟩, rfl⟩
    · rintro ⟨r, ⟨hr, hrecord⟩ | ⟨houter, hnone, -⟩, rfl⟩
      · exact ⟨r, hr, hrecord, rfl⟩
      · refine absurd ?_ hlost
        rw [houter, Bool.true_and, List.isEmpty_iff, List.eq_nil_iff_forall_not_mem]
        intro t ht
        obtain ⟨r', hr', hrecord, -⟩ := (mem_matching h).1 ht
        exact hnone r' hr' hrecord

/-- After joins with a first table, a scope has under each of their aliases what the join
can put there, and is otherwise one of the scopes before. -/
theorem mem_extendAll {db : Relations} {base : String} {joins : List Join}
    (hlocal : ∀ j ∈ joins, j.IsLocal db base) (hdistinct : (joins.map Join.source).Nodup)
    {scopes : List Scope} {t : Scope} :
    t ∈ extendAll db scopes joins ↔ ∃ s ∈ scopes,
      (∀ j ∈ joins, j.Puts db base (s base) (t j.source)) ∧
        ∀ a, a ∉ joins.map Join.source → t a = s a := by
  induction joins generalizing scopes with
  | nil =>
    constructor
    · intro ht
      exact ⟨t, ht, fun j hj => absurd hj List.not_mem_nil, fun a _ => rfl⟩
    · rintro ⟨s, hs, -, hsame⟩
      obtain rfl : t = s := funext fun a => hsame a List.not_mem_nil
      exact hs
  | cons j joins ih =>
    obtain ⟨table, source, condition, outer⟩ := j
    have hj := hlocal _ List.mem_cons_self
    have hne : base ≠ source := hj.1
    obtain ⟨hfresh, hrest⟩ := List.nodup_cons.1 hdistinct
    -- the alias of this join is not that of a later one, so later joins leave it as it is
    have hfresh : source ∉ joins.map Join.source := hfresh
    rw [extendAll, ih (fun j h => hlocal j (List.mem_cons_of_mem _ h)) hrest]
    constructor
    · rintro ⟨s₁, hs₁, hputs, hsame⟩
      rw [Join.extend, List.mem_flatMap] at hs₁
      obtain ⟨s, hs, hs₁⟩ := hs₁
      obtain ⟨r, hr, rfl⟩ := (mem_joined hj).1 hs₁
      have hown : t source = r := by rw [hsame source hfresh, Scope.bind_self]
      refine ⟨s, hs, ?_, ?_⟩
      · intro j hmem
        rcases List.mem_cons.1 hmem with rfl | hmem
        · rw [Join.source, hown]
          exact hr
        · have hlater := hputs j hmem
          rwa [Scope.bind_ne hne] at hlater
      · intro a ha
        rw [List.map_cons, List.mem_cons, not_or] at ha
        have hown : a ≠ source := ha.1
        rw [hsame a ha.2, Scope.bind_ne hown]
    · -- the scope after this join has under its alias what the last scope has
      rintro ⟨s, hs, hputs, hsame⟩
      refine ⟨s.bind source (t source), ?_, ?_, ?_⟩
      · rw [Join.extend, List.mem_flatMap]
        exact ⟨s, hs, (mem_joined hj).2 ⟨t source, hputs _ List.mem_cons_self, rfl⟩⟩
      · intro j hmem
        rw [Scope.bind_ne hne]
        exact hputs j (List.mem_cons_of_mem _ hmem)
      · intro a ha
        by_cases hown : a = source
        · rw [hown, Scope.bind_self]
        · rw [Scope.bind_ne hown]
          apply hsame
          rw [List.map_cons, List.mem_cons, not_or]
          exact ⟨hown, ha⟩


/-! ## Joins on equal columns -/

section

variable {db : Relations}

theorem holds_equal {s : Scope} {c d : Column} :
    (Expr.compare (.column c) Operator.equal.text (.column d)).Holds db s ↔
      s.cell c ≠ .null ∧ s.cell c = s.cell d := by
  rw [holds_compare, Expr.value, Expr.value, compared_equal]

variable {table base source x y : String} {outer : Bool} (hne : base ≠ source)
include hne

theorem isLocal_equal :
    (Join.mk table source (.compare (.column ⟨base, x⟩) Operator.equal.text
      (.column ⟨source, y⟩)) outer).IsLocal db base := by
  refine ⟨hne, fun s s' hbase hsource => ?_⟩
  simp only [holds_equal, Scope.cell, hbase, hsource]

theorem puts_equal {b r : Record} :
    (Join.mk table source (.compare (.column ⟨base, x⟩) Operator.equal.text
      (.column ⟨source, y⟩)) false).Puts db base b r ↔
        r ∈ db table ∧ b.cell x ≠ .null ∧ b.cell x = r.cell y := by
  simp only [Join.Puts, holds_equal, Scope.cell, Scope.pair_base hne, Scope.pair_source,
    Bool.false_eq_true, false_and, or_false]

end

/-! ## Outer joins with at most one match -/

/-- An outer join that finds at most one match for each record of the first table. -/
def Join.Completes (db : Relations) (base : String) : Join → Prop
  | .mk table source condition outer => outer = true ∧ ∀ b : Record, (db table).Pairwise
      fun r r' => ¬(condition.Holds db (.pair base source b r) ∧
        condition.Holds db (.pair base source b r'))

section

variable {db : Relations} {base : String}

/-- Such a join leaves one scope for each scope. -/
theorem joined_eq_singleton {table source : String} {condition : Expr} {outer : Bool}
    (hlocal : (Join.mk table source condition outer).IsLocal db base)
    (hcompletes : (Join.mk table source condition outer).Completes db base) (s : Scope) :
    ∃ t, joined (db table) source (fun s => (condition.value db [] s).truth) outer s = [t] := by
  obtain ⟨rfl, hmatch⟩ := hcompletes
  -- of two matches in the list, one would have come before the other
  have hfew : (((db table).map fun r => s.bind source r).filter
      fun s => (condition.value db [] s).truth == some true).Pairwise fun _ _ => False := by
    rw [List.pairwise_filter, List.pairwise_map]
    refine (hmatch (s base)).imp fun {r r'} hnot h h' => hnot ⟨?_, ?_⟩
    · exact (holds_bind hlocal s r).1 (beq_iff_eq.1 h)
    · exact (holds_bind hlocal s r').1 (beq_iff_eq.1 h')
  unfold joined
  generalize ((db table).map fun r => s.bind source r).filter
    (fun s => (condition.value db [] s).truth == some true) = found at hfew
  cases found with
  | nil => exact ⟨_, rfl⟩
  | cons t rest =>
    cases rest with
    | nil => exact ⟨t, rfl⟩
    | cons t' rest => exact absurd (List.rel_of_pairwise_cons hfew List.mem_cons_self) id

variable {joins : List Join} (hlocal : ∀ j ∈ joins, j.IsLocal db base)
  (hcompletes : ∀ j ∈ joins, j.Completes db base)
include hlocal hcompletes

/-- Joins of this kind turn each scope into one. -/
theorem exists_extendAll_eq_map :
    ∃ f : Scope → Scope, ∀ scopes, extendAll db scopes joins = scopes.map f := by
  induction joins with
  | nil => exact ⟨id, fun scopes => (List.map_id scopes).symm⟩
  | cons j joins ih =>
    obtain ⟨table, source, condition, outer⟩ := j
    obtain ⟨f, hf⟩ := ih (fun j h => hlocal j (List.mem_cons_of_mem _ h))
      fun j h => hcompletes j (List.mem_cons_of_mem _ h)
    choose g hg using joined_eq_singleton (hlocal _ List.mem_cons_self)
      (hcompletes _ List.mem_cons_self)
    refine ⟨f ∘ g, fun scopes => ?_⟩
    rw [extendAll, hf, Join.extend, funext hg, ← List.map_eq_flatMap, List.map_map]

/-- The scope that each scope becomes has under the alias of every join what the join can put
there, and is otherwise as before. -/
theorem extendAll_eq_map (hdistinct : (joins.map Join.source).Nodup) :
    ∃ f : Scope → Scope, (∀ scopes, extendAll db scopes joins = scopes.map f) ∧
      ∀ s, (∀ j ∈ joins, j.Puts db base (s base) (f s j.source)) ∧
        ∀ a, a ∉ joins.map Join.source → f s a = s a := by
  obtain ⟨f, hf⟩ := exists_extendAll_eq_map hlocal hcompletes
  refine ⟨f, hf, fun s => ?_⟩
  -- the scope alone, joined
  have hmem : f s ∈ extendAll db [s] joins := by
    rw [hf]
    exact List.mem_cons_self
  obtain ⟨_, hs, hjoined⟩ := (mem_extendAll hlocal hdistinct).1 hmem
  rwa [List.mem_singleton.1 hs] at hjoined

end

end CardArchive
