import CardArchive.Proofs.Filter.Mana
import CardArchive.Proofs.Search.Taken
import CardArchive.Proofs.Statement.Widths

/-!
# What comparisons ask of the database

Every comparison of a statistic with an integer reads from a table of its own, one of two
statistics from two, and one of an amount of mana from one beside the table of the cards.
Only the symbols of mana are texts of the statement. So the number of filters alone decides
whether their statement reads from too many tables, and below that number it is far from being
too high.

## What this module delivers

* `Expr.IsPlain`: a comparison without a text that asks nothing.
* `comparisonSelect`: the selection of cards of a category of comparisons.
* `tableCount`, `comparedTexts` and `comparisonSelect_isFlat`: what it asks.
* `statement_comparisons`: the statement of a search that only compares numbers.
* `isTaken_comparisons_iff`: when it is taken.
-/

set_option autoImplicit false

namespace CardArchive

/-! ## Plain conditions -/

/-- A condition of a bounded height that holds no text and asks nothing of the database. It
stands as one part in a conjunction. -/
structure Expr.IsPlain (e : Expr) (high : Nat) : Prop where
  demands : e.demands = []
  texts : e.texts = []
  height : e.height ≤ high
  apart : ∀ es, conjunctHeights (e :: es) = e.height :: conjunctHeights es

theorem isPlain_compare {l r : Expr} {o : String} {high : Nat} (hl : l.demands = [])
    (hr : r.demands = []) (htexts : l.texts = [] ∧ r.texts = [])
    (hhigh : max l.height r.height + 1 ≤ high) : (Expr.compare l o r).IsPlain high where
  demands := by rw [Expr.demands, hl, hr, List.append_nil]
  texts := by rw [Expr.texts, htexts.1, htexts.2, List.append_nil]
  height := hhigh
  apart _ := rfl

section

variable {high : Nat} {es : List Expr}

theorem allDemands_plain (h : ∀ e ∈ es, e.IsPlain high) : allDemands es = [] := by
  induction es with
  | nil => rfl
  | cons e es ih =>
    obtain ⟨he, hes⟩ := List.forall_mem_cons.1 h
    rw [allDemands, he.demands, ih hes, List.append_nil]

theorem allTexts_plain (h : ∀ e ∈ es, e.IsPlain high) : allTexts es = [] := by
  induction es with
  | nil => rfl
  | cons e es ih =>
    obtain ⟨he, hes⟩ := List.forall_mem_cons.1 h
    rw [allTexts, he.texts, ih hes, List.append_nil]

theorem conjunctHeights_plain (h : ∀ e ∈ es, e.IsPlain high) :
    conjunctHeights es = es.map Expr.height := by
  induction es with
  | nil => rfl
  | cons e es ih =>
    obtain ⟨he, hes⟩ := List.forall_mem_cons.1 h
    rw [he.apart, ih hes, List.map_cons]

end

theorem Select.IsFlat.mono {s : Select} {sources rise more : Nat} (h : s.IsFlat sources rise)
    (hmore : rise ≤ more) : s.IsFlat sources more :=
  ⟨h.demands, h.height.trans hmore, fun base => (h.depth base).trans (by omega)⟩

/-! ## Selections from statistics -/

/-- A part of a comparison has a source for each number that it takes, and its condition is
plain. -/
structure Numbered.PartPlain (x : Numbered (List Source × Expr)) : Prop where
  sources : ∀ n, (x.build n).1.length = x.size
  condition : ∀ n, (x.build n).2.IsPlain 3
  positive : 0 < x.size

theorem statPart_plain (x : StatTest) : x.part.PartPlain where
  sources _ := rfl
  condition _ := by
    have hliteral := Literal.height_le (.integer x.value)
    refine isPlain_compare rfl rfl ⟨rfl, rfl⟩ ?_
    simp only [Expr.height, columnHeight]
    omega
  positive := Nat.one_pos

theorem versusPart_plain (x : VersusTest) : x.part.PartPlain where
  sources _ := rfl
  condition _ := isPlain_compare rfl rfl ⟨rfl, rfl⟩ (Nat.le_refl 3)
  positive := Nat.two_pos

/-- The selection of cards by comparisons of statistics. -/
def numbersSelect (parts : List (Numbered (List Source × Expr))) : Numbered Select :=
  ⟨sizes parts, fun n =>
    selectNumbers ((layout parts n).flatMap Prod.fst) ((layout parts n).map Prod.snd)⟩

theorem length_layout {α : Type} (xs : List (Numbered α)) (n : Nat) :
    (layout xs n).length = xs.length := by
  induction xs generalizing n with
  | nil => rfl
  | cons x xs ih => rw [layout_cons, List.length_cons, List.length_cons, ih]

section

variable {parts : List (Numbered (List Source × Expr))} (hparts : ∀ x ∈ parts, x.PartPlain)
include hparts

theorem length_sources (n : Nat) : ((layout parts n).flatMap Prod.fst).length = sizes parts := by
  induction parts generalizing n with
  | nil => rfl
  | cons x xs ih =>
    obtain ⟨hx, hxs⟩ := List.forall_mem_cons.1 hparts
    rw [layout_cons, List.flatMap_cons, List.length_append, hx.sources, ih hxs, sizes_cons]

theorem length_le_sizes : parts.length ≤ sizes parts := by
  induction parts with
  | nil => exact Nat.zero_le _
  | cons x xs ih =>
    obtain ⟨hx, hxs⟩ := List.forall_mem_cons.1 hparts
    have hpositive := hx.positive
    have hrest := ih hxs
    rw [List.length_cons, sizes_cons]
    omega

theorem conditions_plain (n : Nat) : ∀ e ∈ (layout parts n).map Prod.snd, e.IsPlain 3 := by
  refine List.forall_mem_map.2 fun p hp => ?_
  obtain ⟨x, hx, m, -, rfl⟩ := mem_layout hp
  exact (hparts x hx).condition m

omit hparts in
/-- The joins of sources compare columns only. -/
theorem joins_plain (base : Source) (rest : List Source) :
    joinDemands (rest.map base.join) = [] ∧ joinsTexts (rest.map base.join) = [] ∧
      joinHeights (rest.map base.join) = rest.map fun _ => 3 := by
  induction rest with
  | nil => exact ⟨rfl, rfl, rfl⟩
  | cons x xs ih => exact ⟨ih.1, ih.2.1, congrArg (3 :: ·) ih.2.2⟩

/-- A selection from statistics reads from one table for each number that its parts take. -/
theorem numbersSelect_isFlat (hne : parts ≠ []) (n : Nat) :
    ((numbersSelect parts).build n).IsFlat (sizes parts) (2 * sizes parts + 5) ∧
      ((numbersSelect parts).build n).texts = [] := by
  have hplain := conditions_plain hparts n
  have hsources := length_sources hparts n
  have hcount := length_le_sizes hparts
  have hpositive : 0 < parts.length := List.length_pos_iff.2 hne
  change (selectNumbers _ _).IsFlat _ _ ∧ (selectNumbers _ _).texts = []
  cases hlaid : (layout parts n).flatMap Prod.fst with
  | nil =>
    rw [hlaid, List.length_nil] at hsources
    omega
  | cons base rest =>
    rw [hlaid, List.length_cons] at hsources
    obtain ⟨hdemands, htexts, hheights⟩ := joins_plain base rest
    have hhigh : ∀ high ∈ conjunctHeights ((layout parts n).map Prod.snd) ++
        joinHeights (rest.map base.join), high ≤ 3 := by
      rw [conjunctHeights_plain hplain, hheights, List.forall_mem_append]
      exact ⟨List.forall_mem_map.2 fun e he => (hplain e he).height,
        List.forall_mem_map.2 fun _ _ => Nat.le_refl 3⟩
    have hflat := isFlat_mk [base.keyColumn] [] base.table base.keyColumn.source hdemands
      (allDemands_plain hplain) (by decide) hhigh
    rw [List.length_map, hsources] at hflat
    refine ⟨hflat.mono ?_, ?_⟩
    · rw [conjunctHeights_plain hplain, hheights, List.length_append, List.length_map,
        List.length_map, List.length_map, length_layout]
      omega
    · rw [selectNumbers, selectColumn, Select.texts, htexts, allTexts_plain hplain]
      rfl

end

/-! ## Selections from amounts of mana -/

/-- The joins of amounts of mana hold the symbols, and are little higher than comparisons. -/
theorem amounts_joins (card : String) (xs : List ManaTest) (n : Nat) :
    let joins := (layout (xs.map (ManaTest.part card)) n).map Prod.fst
    joinDemands joins = [] ∧ joinsTexts joins = xs.map ManaTest.symbol ∧
      joinHeights joins = xs.map fun _ => 4 := by
  induction xs generalizing n with
  | nil => exact ⟨rfl, rfl, rfl⟩
  | cons x xs ih =>
    obtain ⟨hdemands, htexts, hheights⟩ := ih (n + 1)
    exact ⟨hdemands, congrArg (x.symbol :: ·) htexts, congrArg (4 :: ·) hheights⟩

theorem amounts_plain (card : String) (xs : List ManaTest) (n : Nat) :
    ∀ e ∈ (layout (xs.map (ManaTest.part card)) n).map Prod.snd, e.IsPlain 4 := by
  refine List.forall_mem_map.2 fun p hp => ?_
  obtain ⟨y, hy, m, -, rfl⟩ := mem_layout hp
  obtain ⟨x, -, rfl⟩ := List.mem_map.1 hy
  have hfallback := Literal.height_le (.integer 0)
  have hliteral := Literal.height_le (.integer x.quantity)
  refine isPlain_compare rfl rfl ⟨rfl, rfl⟩ ?_
  simp only [Expr.height, columnHeight]
  omega

/-- A selection from amounts of mana reads from the table of the cards and from one more for
each comparison. -/
theorem manaSelect_isFlat (xs : List ManaTest) (n : Nat) :
    (manaSelect xs n).IsFlat (xs.length + 1) (2 * xs.length + 5) ∧
      (manaSelect xs n).texts = xs.map ManaTest.symbol := by
  obtain ⟨hdemands, htexts, hheights⟩ : joinDemands (manaJoins xs n) = [] ∧
      joinsTexts (manaJoins xs n) = xs.map ManaTest.symbol ∧
      joinHeights (manaJoins xs n) = xs.map fun _ => 4 := amounts_joins (aliasName n) xs (n + 1)
  have hplain : ∀ e ∈ manaConditions xs n, e.IsPlain 4 := amounts_plain (aliasName n) xs (n + 1)
  have hjoins : (manaJoins xs n).length = xs.length := by
    rw [manaJoins, List.length_map, length_layout, List.length_map]
  have hconditions : (manaConditions xs n).length = xs.length := by
    rw [manaConditions, List.length_map, length_layout, List.length_map]
  have hhigh : ∀ high ∈ conjunctHeights (manaConditions xs n) ++ joinHeights (manaJoins xs n),
      high ≤ 4 := by
    rw [conjunctHeights_plain hplain, hheights, List.forall_mem_append]
    exact ⟨List.forall_mem_map.2 fun e he => (hplain e he).height,
      List.forall_mem_map.2 fun _ _ => Nat.le_refl 4⟩
  have hflat := isFlat_mk [⟨aliasName n, "name"⟩] [] "Card" (aliasName n) hdemands
    (allDemands_plain hplain) (by decide) hhigh
  rw [hjoins] at hflat
  refine ⟨hflat.mono ?_, ?_⟩
  · rw [conjunctHeights_plain hplain, hheights, List.length_append, List.length_map,
      List.length_map, hconditions]
    omega
  · rw [manaSelect, selectColumn, Select.texts, htexts, allTexts_plain hplain]
    simp only [havingTexts, List.append_nil]

/-! ## Categories of comparisons -/

/-- The selection of cards of a category of comparisons. -/
def comparisonSelect (c : Category) (es : List Entry) : Numbered Select :=
  match c with
  | .manaType => ⟨1 + (manaTests es).length, manaSelect (manaTests es)⟩
  | .statVersusStat => numbersSelect ((versusTests es).map VersusTest.part)
  | _ => numbersSelect ((statTests es).map StatTest.part)

/-- The number of tables that a category of comparisons reads from with so many filters. -/
def tableCount (c : Category) (filters : Nat) : Nat :=
  match c with
  | .manaType => filters + 1
  | .statVersusStat => 2 * filters
  | _ => filters

/-- The texts that the selection of a category of comparisons holds: the symbols of mana. -/
def comparedTexts (c : Category) (es : List Entry) : List String :=
  match c with
  | .manaType => (manaTests es).map ManaTest.symbol
  | _ => []

theorem sizes_statParts (xs : List StatTest) : sizes (xs.map StatTest.part) = xs.length := by
  induction xs with
  | nil => rfl
  | cons x xs ih =>
    have hone : x.part.size = 1 := rfl
    rw [List.map_cons, sizes_cons, ih, hone, List.length_cons, Nat.add_comm]

theorem sizes_versusParts (xs : List VersusTest) :
    sizes (xs.map VersusTest.part) = 2 * xs.length := by
  induction xs with
  | nil => rfl
  | cons x xs ih =>
    have htwo : x.part.size = 2 := rfl
    rw [List.map_cons, sizes_cons, ih, htwo, List.length_cons]
    omega

section

variable {catalog : Catalog} {c : Category} (hc : c.comparesNumbers = true) {es : List Entry}
include hc

theorem fragmentOf_comparisons (ctx : Context) :
    fragmentOf ctx c es = (comparisonSelect c es).map Fragment.cards := by
  cases c with
  | stat | statVersusStat | manaType => rfl
  | _ => cases hc

variable (hfit : ∀ e ∈ es, e.Fits catalog c)
include hfit

theorem size_comparisonSelect : (comparisonSelect c es).size = tableCount c es.length := by
  cases c with
  | stat =>
    have hlength := congrArg List.length (map_statTests hfit)
    rw [List.length_map] at hlength
    exact (sizes_statParts _).trans hlength
  | statVersusStat =>
    have hlength := congrArg List.length (map_versusTests hfit)
    rw [List.length_map] at hlength
    exact (sizes_versusParts _).trans (congrArg (2 * ·) hlength)
  | manaType =>
    have hlength := congrArg List.length (map_manaTests hfit)
    rw [List.length_map] at hlength
    exact (Nat.add_comm _ _).trans (congrArg (· + 1) hlength)
  | _ => cases hc

theorem comparisonSelect_isFlat (hne : es ≠ []) (n : Nat) :
    ((comparisonSelect c es).build n).IsFlat (tableCount c es.length)
        (2 * tableCount c es.length + 5) ∧
      ((comparisonSelect c es).build n).texts = comparedTexts c es := by
  have hsize := size_comparisonSelect hc hfit
  cases c with
  | stat =>
    have hsome : (statTests es).map StatTest.part ≠ [] := fun h =>
      hne (by rw [← map_statTests hfit, List.map_eq_nil_iff.1 h, List.map_nil])
    rw [← hsize]
    exact numbersSelect_isFlat (List.forall_mem_map.2 fun x _ => statPart_plain x) hsome n
  | statVersusStat =>
    have hsome : (versusTests es).map VersusTest.part ≠ [] := fun h =>
      hne (by rw [← map_versusTests hfit, List.map_eq_nil_iff.1 h, List.map_nil])
    rw [← hsize]
    exact numbersSelect_isFlat (List.forall_mem_map.2 fun x _ => versusPart_plain x) hsome n
  | manaType =>
    have hlength : (manaTests es).length = es.length := by
      rw [← List.length_map (f := ManaTest.entry), map_manaTests hfit]
    obtain ⟨hflat, htexts⟩ := manaSelect_isFlat (manaTests es) n
    rw [hlength] at hflat
    exact ⟨hflat.mono (by simp only [tableCount]; omega), htexts⟩
  | _ => cases hc

end

/-! ## Searches that compare numbers -/

/-- The selections of cards of a search that compares numbers. -/
def comparisonSelects (f : Filters) : List Select :=
  layout (f.active.map fun c => comparisonSelect c (f.entries c)) 1

section

variable {s : Search} {catalog : Catalog} (hfit : s.filters.Fit catalog)
  (hnumbers : ∀ c ∈ s.filters.active, c.comparesNumbers = true)
include hfit hnumbers

/-- The statement of a search that compares numbers looks for the card of a printing in the
selections of its categories. -/
theorem statement_comparisons :
    s.statement? = .ok (cardsOnly (aliasName 0) (comparisonSelects s.filters)) := by
  have hparts : fragmentsOf ⟨aliasName 0, s.catalog.blocks⟩ s.filters s.filters.active =
      (s.filters.active.map fun c => comparisonSelect c (s.filters.entries c)).map
        (Numbered.map Fragment.cards) := by
    rw [fragmentsOf, List.map_map]
    exact List.map_congr_left fun c hc => fragmentOf_comparisons (hnumbers c hc) _
  rw [Search.statement?, statement_eq _ hfit, activeFragments, hparts, layout_map]
  rfl

/-- Every selection is that of an active category. -/
theorem mem_comparisonSelects {sel : Select} (h : sel ∈ comparisonSelects s.filters) :
    ∃ c ∈ s.filters.active,
      sel.IsFlat (tableCount c (s.filters.entries c).length)
        (2 * tableCount c (s.filters.entries c).length + 5) ∧
      sel.texts = comparedTexts c (s.filters.entries c) := by
  obtain ⟨_, hpart, n, -, rfl⟩ := mem_layout h
  obtain ⟨c, hc, rfl⟩ := List.mem_map.1 hpart
  exact ⟨c, hc, comparisonSelect_isFlat (hnumbers c hc)
    (fun e he => fits_of_mem_entries hfit he) (mem_active.1 hc) n⟩

/-- Every active category has its selection. -/
theorem exists_comparisonSelect {c : Category} (hc : c ∈ s.filters.active) :
    ∃ sel ∈ comparisonSelects s.filters,
      sel.demands = [.sources (tableCount c (s.filters.entries c).length)] ∧
      sel.texts = comparedTexts c (s.filters.entries c) := by
  obtain ⟨n, -, hmem⟩ := exists_mem_layout (List.mem_map_of_mem hc) 1
  obtain ⟨hflat, htexts⟩ := comparisonSelect_isFlat (hnumbers c hc)
    (fun e he => fits_of_mem_entries hfit he) (mem_active.1 hc) n
  exact ⟨_, hmem, hflat.demands, htexts⟩

/-- The database takes the statement of a search that compares numbers exactly if its integers
can be printed, no category reads from too many tables, no symbol holds the null character,
and the text is not too long. -/
theorem isTaken_comparisons_iff {f : Frame} :
    s.IsTaken f ↔ s.filters.arePrintable = true ∧
      (∀ c ∈ s.filters.active, tableCount c (s.filters.entries c).length ≤ joinLimit) ∧
      (∀ c ∈ s.filters.active, ∀ x ∈ comparedTexts c (s.filters.entries c),
        holdsNull x = false) ∧
      ∀ text, s.text? = .ok text → (f.text text).utf8ByteSize ≤ statementLimit := by
  have hstatement := statement_comparisons hfit hnumbers
  have hdemands : ∀ sel ∈ comparisonSelects s.filters, ∃ n, sel.demands = [.sources n] := by
    intro sel hsel
    obtain ⟨c, -, hflat, -⟩ := mem_comparisonSelects hfit hnumbers hsel
    exact ⟨_, hflat.demands⟩
  have hone : 1 ≤ joinLimit := by decide
  have hmore := readsMore_cardsOnly (aliasName 0) hone hdemands
  constructor
  · rintro ⟨statement, hprepared, -⟩
    obtain ⟨text, hprinted, hmade, htakes⟩ := prepared_eq_ok_iff.1 hprepared
    obtain ⟨htext, hprintable⟩ := printed?_eq_ok_iff.1 hprinted
    obtain rfl := Except.ok.inj (hstatement.symm.trans hmade)
    refine ⟨hprintable, fun c hc => ?_, fun c hc x hx => ?_, fun other hother => ?_⟩
    · obtain ⟨sel, hsel, hsources, -⟩ := exists_comparisonSelect hfit hnumbers hc
      exact hmore.1 htakes.few sel hsel _ hsources
    · obtain ⟨sel, hsel, -, htexts⟩ := exists_comparisonSelect hfit hnumbers hc
      refine htakes.plain x ?_
      rw [texts_cardsOnly, mem_selectsTexts]
      exact ⟨sel, hsel, htexts ▸ hx⟩
    · obtain rfl := Except.ok.inj (htext.symm.trans hother)
      exact htakes.short
  · rintro ⟨hprintable, hfew, hplain, hshort⟩
    obtain ⟨text, htext, -⟩ := text_readable (statement_scoped s.catalog.blocks hfit)
    have hcompose : s.text? = .ok text := by
      rw [Search.text?, compose, statement_eq _ hfit, ok_bind, htext]
      rfl
    have hlow : ∀ sel ∈ comparisonSelects s.filters, sel.height ≤ 133 ∧
        ∀ base, sel.depth base ≤ base + 133 := by
      intro sel hsel
      obtain ⟨c, hc, hflat, -⟩ := mem_comparisonSelects hfit hnumbers hsel
      have hcount : tableCount c (s.filters.entries c).length ≤ 64 := hfew c hc
      have hbounded : sel.IsFlat _ 133 := hflat.mono (by omega)
      exact ⟨hbounded.height, hbounded.depth⟩
    refine ⟨_, prepared_eq_ok_iff.2 ⟨text, printed?_eq_ok_iff.2 ⟨hcompose, hprintable⟩, hstatement,
      hshort text hcompose, ?_, ?_, hmore.2 fun sel hsel n hn => ?_⟩,
      hasLongWord_cardsOnly hdemands⟩
    · intro x hx
      rw [texts_cardsOnly, mem_selectsTexts] at hx
      obtain ⟨sel, hsel, hx⟩ := hx
      obtain ⟨c, hc, -, htexts⟩ := mem_comparisonSelects hfit hnumbers hsel
      exact hplain c hc x (htexts ▸ hx)
    · exact (depth_cardsOnly (by decide) (fun sel hsel => (hlow sel hsel).1)
        (fun sel hsel => (hlow sel hsel).2) f).trans (by decide)
    · obtain ⟨c, hc, hflat, -⟩ := mem_comparisonSelects hfit hnumbers hsel
      rw [hflat.demands] at hn
      cases hn
      exact hfew c hc

/-- A search that compares numbers fails if its statement is not taken: no pattern is left
that only the records could refuse. -/
theorem fails_of_not_isTaken {f : Frame} (h : ¬s.IsTaken f) (t : Tables) :
    Fails (t.found f s) := by
  cases hprepared : s.prepared f with
  | error e => exact ⟨e, found_of_not_prepared hprepared⟩
  | ok statement =>
    refine absurd ⟨statement, hprepared, ?_⟩ h
    obtain ⟨text, -, hmade, -⟩ := prepared_eq_ok_iff.1 hprepared
    obtain rfl := Except.ok.inj ((statement_comparisons hfit hnumbers).symm.trans hmade)
    refine hasLongWord_cardsOnly fun sel hsel => ?_
    obtain ⟨c, -, hflat, -⟩ := mem_comparisonSelects hfit hnumbers hsel
    exact ⟨_, hflat.demands⟩

end

end CardArchive
