import CardArchive.Proofs.Search.Selected
import CardArchive.Proofs.Statement.Joins
import CardArchive.Proofs.Store.Numbers

/-!
# Cards by their statistics

Every statistic that a comparison mentions is a source of its own: a table under a new
alias, joined to the first source on the name of the card. However many sources there are
and whichever comes first, a card is listed exactly if each source has a record of it and
the conditions hold at these records; and as a card has at most one record in each table,
each condition says the same wherever it is asked. A card without a statistic has no record
for its source, so no comparison with it selects the card.

## What this module delivers

* `Source.Stands`: a source as a record of a card.
* `mem_joined_sources`, `text_mem_numbers`: the cards that a selection from sources lists.
* `Numbered.Decides` and `text_mem_layout`: comparisons as parts that are laid out.
* `statPart_decides`, `versusPart_decides`: the two kinds of comparisons.
* `admits_stats`: what the fragments of comparisons of statistics admit.
-/

set_option autoImplicit false

namespace CardArchive

open CardArchive.Numbering

/-! ## Records under aliases -/

/-- In a scope, a source stands for a record of its table that names a card. -/
def Source.Stands (db : Relations) (name : String) (s : Scope) (x : Source) : Prop :=
  s x.source ∈ db x.table ∧ (s x.source).cell x.key = .text name

section

variable {db : Relations} {name : String} {scope : Scope}

/-- If every source has a record of a card, then some scope has one under the alias of each,
and is as before elsewhere. -/
theorem exists_stands {sources : List Source} (hdistinct : (sources.map Source.source).Nodup)
    (h : ∀ x ∈ sources, ∃ r ∈ db x.table, r.cell x.key = .text name) :
    ∃ s : Scope, (∀ x ∈ sources, x.Stands db name s) ∧
      ∀ a, a ∉ sources.map Source.source → s a = scope a := by
  induction sources with
  | nil => exact ⟨scope, fun x hx => absurd hx List.not_mem_nil, fun _ _ => rfl⟩
  | cons x rest ih =>
    obtain ⟨hfresh, hrest⟩ := List.nodup_cons.1 hdistinct
    obtain ⟨⟨r, hr, hcard⟩, h⟩ := List.forall_mem_cons.1 h
    obtain ⟨s, hstands, hsame⟩ := ih hrest h
    refine ⟨s.bind x.source r, List.forall_mem_cons.2 ⟨?_, fun y hy => ?_⟩, fun a ha => ?_⟩
    · rw [Source.Stands, Scope.bind_self]
      exact ⟨hr, hcard⟩
    · -- the alias of a later source is another one
      have hne : y.source ≠ x.source := fun heq => hfresh (heq ▸ List.mem_map_of_mem hy)
      rw [Source.Stands, Scope.bind_ne hne]
      exact hstands y hy
    · rw [List.map_cons, List.mem_cons, not_or] at ha
      rw [Scope.bind_ne ha.1]
      exact hsame a ha.2

/-- What the join of a further source can put beside a record of a card: the records of its
table that name the same card. -/
theorem puts_join {base x : Source} (hne : base.source ≠ x.source) {b r : Record}
    (hcard : b.cell base.key = .text name) :
    (base.join x).Puts db base.source b r ↔ r ∈ db x.table ∧ r.cell x.key = .text name := by
  refine (puts_equal hne).trans (and_congr_right fun _ => ?_)
  rw [hcard]
  exact ⟨fun h => h.2.symm, fun h => ⟨Cell.noConfusion, h.symm⟩⟩

/-- The scopes after the joins of sources in which the first source names a card are those in
which every source stands for a record of it. -/
theorem mem_joined_sources {base : Source} {rest : List Source}
    (hdistinct : ((base :: rest).map Source.source).Nodup) {s : Scope} :
    (s ∈ extendAll db ((db base.table).map fun r => scope.bind base.source r)
        (rest.map base.join) ∧ (s base.source).cell base.key = .text name) ↔
      (∀ x ∈ base :: rest, x.Stands db name s) ∧
        ∀ a, a ∉ (base :: rest).map Source.source → s a = scope a := by
  obtain ⟨hfresh, hrest⟩ := List.nodup_cons.1 hdistinct
  have hne : ∀ x ∈ rest, base.source ≠ x.source := fun x hx heq =>
    hfresh (heq ▸ List.mem_map_of_mem hx)
  have hlocal : ∀ j ∈ rest.map base.join, j.IsLocal db base.source := by
    intro j hj
    obtain ⟨x, hx, rfl⟩ := List.mem_map.1 hj
    exact isLocal_equal (hne x hx)
  have hsources : (rest.map base.join).map Join.source = rest.map Source.source := List.map_map
  simp only [mem_extendAll hlocal (hsources ▸ hrest), hsources, List.forall_mem_map]
  constructor
  · rintro ⟨⟨s₀, hs₀, hjoined, hsame⟩, hcard⟩
    obtain ⟨b, hb, rfl⟩ := List.mem_map.1 hs₀
    have hbase : s base.source = b := (hsame _ hfresh).trans (Scope.bind_self _ _ _)
    refine ⟨List.forall_mem_cons.2 ⟨⟨hbase ▸ hb, hcard⟩, fun x hx => ?_⟩, fun a ha => ?_⟩
    · have hput := hjoined x hx
      rw [Scope.bind_self] at hput
      exact (puts_join (hne x hx) (hbase ▸ hcard)).1 hput
    · rw [List.map_cons, List.mem_cons, not_or] at ha
      rw [hsame a ha.2, Scope.bind_ne ha.1]
  · rintro ⟨hstands, hsame⟩
    obtain ⟨⟨hb, hcard⟩, hstands⟩ := List.forall_mem_cons.1 hstands
    -- the first table puts its record under its alias, and each join its own
    refine ⟨⟨scope.bind base.source (s base.source), List.mem_map_of_mem hb, fun x hx => ?_,
      fun a ha => ?_⟩, hcard⟩
    · rw [Scope.bind_self]
      exact (puts_join (hne x hx) hcard).2 (hstands x hx)
    · by_cases hbase : a = base.source
      · rw [hbase, Scope.bind_self]
      · rw [Scope.bind_ne hbase]
        exact hsame a fun hmem => (List.mem_cons.1 hmem).elim hbase ha

/-- A selection from sources lists a card exactly if there are records of it under all
aliases at which the conditions hold. -/
theorem text_mem_numbers {base : Source} {rest : List Source} {conditions : List Expr}
    (hdistinct : ((base :: rest).map Source.source).Nodup) :
    .text name ∈ firstCells ((selectNumbers (base :: rest) conditions).rows db scope) ↔
      ∃ s : Scope, ((∀ x ∈ base :: rest, x.Stands db name s) ∧
        ∀ a, a ∉ (base :: rest).map Source.source → s a = scope a) ∧
        ∀ e ∈ conditions, e.Holds db s := by
  rw [selectNumbers, selectColumn, mem_cells_single]
  apply exists_congr
  intro s
  rw [mem_keptScopes, ← mem_joined_sources hdistinct]
  exact and_right_comm

/-! ## Comparisons in turn -/

/-- A part of a comparison decides a property of a card: where the property holds, its sources
have records of the card, and at any such records its condition says whether it does. -/
structure Numbered.Decides (db : Relations) (name : String) (Q : Prop)
    (x : Numbered (List Source × Expr)) : Prop where
  sources : Q → ∀ m, ∀ y ∈ (x.build m).1, ∃ r ∈ db y.table, r.cell y.key = .text name
  condition : ∀ m s, (∀ y ∈ (x.build m).1, y.Stands db name s) → ((x.build m).2.Holds db s ↔ Q)

section

variable {α : Type} {xs : List α} {part : α → Numbered (List Source × Expr)} {Q : α → Prop}

/-- Every part takes numbers of its own, so no two sources have one alias. -/
theorem nodup_sources (hscoped : ∀ p ∈ xs.map part, p.PartScoped) (n : Nat) :
    (((layout (xs.map part) n).flatMap Prod.fst).map Source.source).Nodup := by
  have htakes := parts_takes hscoped n
  rw [List.map_map] at htakes
  have hsources : ((layout (xs.map part) n).flatMap Prod.fst).map Source.source =
      (List.range' n (sizes (xs.map part))).map aliasName := htakes
  rw [hsources]
  exact nodup_aliases _ _

variable (hdecides : ∀ x, (part x).Decides db name (Q x))
include hdecides

/-- At records of the card, the conditions say together what the properties do. -/
theorem holds_layout (xs : List α) (n : Nat) {s : Scope}
    (hstands : ∀ y ∈ (layout (xs.map part) n).flatMap Prod.fst, y.Stands db name s) :
    (∀ e ∈ (layout (xs.map part) n).map Prod.snd, e.Holds db s) ↔ ∀ x ∈ xs, Q x := by
  rw [List.forall_mem_map]
  refine forall_layout (P := fun p : List Source × Expr => p.2.Holds db s) fun x _ m _ hmem => ?_
  exact (hdecides x).condition m s fun y hy => hstands y (List.mem_flatMap.2 ⟨_, hmem, hy⟩)

/-- Where all properties hold, there are records of the card for all sources. -/
theorem exists_record_layout {xs : List α} (hall : ∀ x ∈ xs, Q x) (n : Nat) :
    ∀ y ∈ (layout (xs.map part) n).flatMap Prod.fst,
      ∃ r ∈ db y.table, r.cell y.key = .text name := by
  intro y hy
  obtain ⟨p, hp, hy⟩ := List.mem_flatMap.1 hy
  obtain ⟨_, hpart, m, -, rfl⟩ := mem_layout hp
  obtain ⟨x, hx, rfl⟩ := List.mem_map.1 hpart
  exact (hdecides x).sources (hall x hx) m y hy

/-- Comparisons that are laid out list the cards that have the property of each of them. -/
theorem text_mem_layout (hscoped : ∀ x, (part x).PartScoped) (hne : xs ≠ []) (n : Nat) :
    .text name ∈ firstCells ((selectNumbers ((layout (xs.map part) n).flatMap Prod.fst)
        ((layout (xs.map part) n).map Prod.snd)).rows db scope) ↔ ∀ x ∈ xs, Q x := by
  have hparts : ∀ p ∈ xs.map part, p.PartScoped := List.forall_mem_map.2 fun x _ => hscoped x
  have hdistinct := nodup_sources hparts n
  have hsome : xs.map part ≠ [] := fun h => hne (List.map_eq_nil_iff.1 h)
  have hconditions := fun s => holds_layout (s := s) hdecides xs n
  have hrecords := fun hall : ∀ x ∈ xs, Q x => exists_record_layout hdecides hall n
  -- the first of the sources is the one that the selection starts from
  obtain ⟨base, rest, hsources⟩ := List.exists_cons_of_ne_nil (parts_sources_ne_nil hparts hsome n)
  rw [hsources] at hdistinct hconditions hrecords ⊢
  rw [text_mem_numbers hdistinct]
  constructor
  · rintro ⟨s, ⟨hstands, -⟩, hholds⟩
    exact (hconditions s hstands).1 hholds
  · intro hall
    obtain ⟨s, hstands, hsame⟩ := exists_stands hdistinct (hrecords hall)
    exact ⟨s, ⟨hstands, hsame⟩, (hconditions s hstands).2 hall⟩

end

end

/-! ## Comparisons of statistics -/

section

variable {t : Tables} (ht : t.Keyed) {name : String}
include ht

theorem exists_record {stat : Stat} {v : Int} (h : t.stat? (some name) stat = some v) (m : Nat) :
    ∃ r ∈ t.relations (statSource stat m).table,
      r.cell (statSource stat m).key = .text name := by
  obtain ⟨r, hr, hcard, -⟩ := (stat?_eq_some ht).1 h
  exact ⟨r, hr, hcard⟩

/-- Where the source of a statistic stands for a record, the card has the statistic, and the
value column holds it. -/
theorem value_of_stands {stat : Stat} {m : Nat} {s : Scope}
    (h : (statSource stat m).Stands t.relations name s) :
    ∃ v, t.stat? (some name) stat = some v ∧ s.cell (statValue stat m) = .integer v := by
  obtain ⟨hr, hcard⟩ := h
  obtain ⟨v, hv⟩ := exists_integer_stat stat hr
  exact ⟨v, (stat?_eq_some ht).2 ⟨_, hr, hcard, hv⟩, hv⟩

theorem statPart_decides (x : StatTest) :
    x.part.Decides t.relations name (t.Meets (some name) x.entry) := by
  refine ⟨?_, fun m s hstands => ?_⟩
  · rintro ⟨v, hv, -⟩ m y hy
    rw [List.mem_singleton.1 hy]
    exact exists_record ht hv m
  · obtain ⟨v, hstat, hcell⟩ := value_of_stands ht (hstands _ List.mem_cons_self)
    refine holds_compare.trans ?_
    rw [Expr.value, Expr.value, hcell, Literal.cell, compared_relates]
    simp [Tables.Meets, StatTest.entry, Tables.number?, hstat]

theorem versusPart_decides (x : VersusTest) :
    x.part.Decides t.relations name (t.Meets (some name) x.entry) := by
  refine ⟨?_, fun m s hstands => ?_⟩
  · rintro ⟨v, hv, w, hw, -⟩ m y hy
    rcases List.mem_cons.1 hy with rfl | hy
    · exact exists_record ht hv m
    · rw [List.mem_singleton.1 hy]
      exact exists_record ht hw (m + 1)
  · obtain ⟨hleft, hright⟩ := List.forall_mem_cons.1 hstands
    obtain ⟨v, hv, hvcell⟩ := value_of_stands ht hleft
    obtain ⟨w, hw, hwcell⟩ := value_of_stands ht (hright _ List.mem_cons_self)
    refine holds_compare.trans ?_
    rw [Expr.value, Expr.value, hvcell, hwcell, compared_relates]
    simp [Tables.Meets, VersusTest.entry, Tables.number?, hv, hw]

end

/-- Comparisons of one kind admit the printings whose cards pass all of them, if the part of
each decides it. -/
theorem admits_numbers {t : Tables} {α : Type} {xs : List α} {entry : α → Entry}
    {part : α → Numbered (List Source × Expr)} {es : List Entry} (hes : xs.map entry = es)
    (hne : es ≠ []) {r : PrintingRow} (hscoped : ∀ x, (part x).PartScoped)
    (hdecides : ∀ x, (part x).Decides t.relations r.card (t.Meets (some r.card) (entry x)))
    (n : Nat) :
    ((numbersFragment (xs.map part)).build n).Admits t.relations r.record ↔
      ∀ e ∈ es, t.Meets (some r.card) e := by
  subst hes
  have hxs : xs ≠ [] := fun h => hne (List.map_eq_nil_iff.2 h)
  rw [List.forall_mem_map]
  exact admits_cards.trans (text_mem_layout hdecides hscoped hxs n)

/-- The fragments of both categories of statistics admit the printings whose cards pass every
comparison. -/
theorem admits_stats {t : Tables} (ht : t.Keyed) {catalog : Catalog} {c : Category}
    (hc : c = .stat ∨ c = .statVersusStat) {es : List Entry} (hne : es ≠ [])
    (hfit : ∀ e ∈ es, e.Fits catalog c) (ctx : Context) (r : PrintingRow) (n : Nat) :
    ((fragmentOf ctx c es).build n).Admits t.relations r.record ↔
      ∀ e ∈ es, t.Meets (some r.card) e := by
  rcases hc with rfl | rfl
  · exact admits_numbers (map_statTests hfit) hne statPart_scoped (statPart_decides ht) n
  · exact admits_numbers (map_versusTests hfit) hne versusPart_scoped (versusPart_decides ht) n

end CardArchive
