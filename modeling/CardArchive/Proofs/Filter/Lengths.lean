import CardArchive.Proofs.Filter.Measures

/-!
# Lengths of statements that compare statistics

An alias of a small number is short, and so are the tables and columns of statistics. The
longest part of a comparison is the integer that it compares with, which has only so many
digits if it can be printed. As no category may read from too many tables, a statement that
compares statistics is never too long.

## What this module delivers

* `utf8ByteSize_aliasName_le`: the length of an alias.
* `Numbered.PartShort`: the parts of comparisons are short.
* `short_statistics`: the length of the whole statement, within any frame.
-/

set_option autoImplicit false

namespace CardArchive

/-- The aliases of a thousand numbers have at most four bytes. -/
theorem utf8ByteSize_aliasName_le {n : Nat} (h : n < 1000) : (aliasName n).utf8ByteSize ≤ 4 := by
  have ht : "t".utf8ByteSize = 1 := rfl
  have hdigits : n.repr.utf8ByteSize ≤ 3 := Text.utf8ByteSize_repr_le (by decide) h
  change ("t" ++ n.repr).utf8ByteSize ≤ 4
  rw [String.utf8ByteSize_append, ht]
  omega

/-- Names of tables and columns of statistics are short. -/
theorem stat_place_short (s : Stat) :
    s.place.1.utf8ByteSize ≤ 14 ∧ s.place.2.1.utf8ByteSize ≤ 15 ∧ s.place.2.2.utf8ByteSize ≤ 9 := by
  cases s <;> decide +kernel

theorem operator_short (o : Operator) : o.text.utf8ByteSize ≤ 2 := by
  cases o <;> decide +kernel

/-! ## Parts -/

/-- A source whose names are short. -/
structure Source.IsShort (x : Source) : Prop where
  table : x.table.utf8ByteSize ≤ 14
  source : x.source.utf8ByteSize ≤ 4
  key : x.key.utf8ByteSize ≤ 9

/-- The number of bytes within which a part of a clause is written. -/
def partLimit : Nat := 4400

/-- A part of a comparison is short under small numbers. -/
def Numbered.PartShort (x : Numbered (List Source × Expr)) : Prop :=
  ∀ n, n + x.size ≤ 1000 → (∀ y ∈ (x.build n).1, y.IsShort) ∧ (x.build n).2.Within partLimit

theorem statSource_isShort (s : Stat) {n : Nat} (h : n < 1000) : (statSource s n).IsShort where
  table := (stat_place_short s).1
  source := utf8ByteSize_aliasName_le h
  key := (stat_place_short s).2.2

theorem within_statValue (s : Stat) {n : Nat} (h : n < 1000) :
    (Expr.column (statValue s n)).Within (4 + 15 + 1) :=
  within_column (utf8ByteSize_aliasName_le h) (stat_place_short s).2.1

theorem Expr.Within.mono {e : Expr} {m n : Nat} (h : e.Within m) (hmn : m ≤ n) : e.Within n := by
  obtain ⟨ps, hps, hwidth⟩ := h
  exact ⟨ps, hps, hwidth.trans hmn⟩

theorem statPart_short {x : StatTest} (h : Text.IsWritable x.value) : x.part.PartShort := by
  intro n hn
  have hsmall : n < 1000 := hn
  refine ⟨List.forall_mem_singleton.2 (statSource_isShort x.stat hsmall), ?_⟩
  refine (within_compare (within_statValue x.stat hsmall) (within_integer h)).mono ?_
  have hoperator := operator_short x.operator
  have hdigits : Text.digitLimit = 4300 := rfl
  rw [partLimit]
  omega

theorem versusPart_short (x : VersusTest) : x.part.PartShort := by
  intro n hn
  have hright : n + 1 < 1000 := hn
  have hleft : n < 1000 := by omega
  refine ⟨List.forall_mem_cons.2 ⟨statSource_isShort x.left hleft,
    List.forall_mem_singleton.2 (statSource_isShort x.right hright)⟩, ?_⟩
  refine (within_compare (within_statValue x.left hleft) (within_statValue x.right hright)).mono ?_
  have hoperator := operator_short x.operator
  rw [partLimit]
  omega

/-- The join of short sources is short. -/
theorem within_sourceJoin {base x : Source} (hbase : base.IsShort) (hx : x.IsShort) :
    (base.join x).Within partLimit := by
  have hequal : Operator.equal.text.utf8ByteSize = 1 := rfl
  obtain ⟨ps, hps, hwidth⟩ := within_join x.table x.source
    (within_compare (o := Operator.equal.text)
      (within_column (c := base.keyColumn) hbase.source hbase.key)
      (within_column (c := x.keyColumn) hx.source hx.key))
  refine ⟨ps, hps, hwidth.trans ?_⟩
  have htable := hx.table
  have hsource := hx.source
  rw [hequal, partLimit]
  omega

/-! ## Selections and statements -/

/-- The number of bytes within which a selection from statistics is written. -/
def selectionLimit : Nat := 20000000

theorem within_numbers {parts : List (Numbered (List Source × Expr))}
    (hplain : ∀ x ∈ parts, x.PartPlain) (hshort : ∀ x ∈ parts, x.PartShort) (hne : parts ≠ [])
    (hfew : sizes parts ≤ joinLimit) {n : Nat} (hn : n + sizes parts ≤ 1000) :
    ((numbersSelect parts).build n).Within selectionLimit := by
  have hpart : ∀ p ∈ layout parts n, (∀ y ∈ p.1, y.IsShort) ∧ p.2.Within partLimit := by
    intro p hp
    obtain ⟨x, hx, m, hm, rfl⟩ := mem_layout_le hp
    exact hshort x hx m (hm.trans hn)
  have hsources : ∀ y ∈ (layout parts n).flatMap Prod.fst, y.IsShort := by
    intro y hy
    obtain ⟨p, hp, hy⟩ := List.mem_flatMap.1 hy
    exact (hpart p hp).1 y hy
  have hconditions : ∀ e ∈ (layout parts n).map Prod.snd, e.Within partLimit :=
    List.forall_mem_map.2 fun p hp => (hpart p hp).2
  have hlimit : joinLimit = 64 := rfl
  have hlength := length_sources hplain n
  have hcount := (length_le_sizes hplain).trans hfew
  have hpositive := (List.length_pos_iff.2 hne).trans_le (length_le_sizes hplain)
  change (selectNumbers _ _).Within _
  cases hlaid : (layout parts n).flatMap Prod.fst with
  | nil =>
    rw [hlaid, List.length_nil] at hlength
    omega
  | cons base rest =>
    rw [hlaid] at hsources hlength
    obtain ⟨hbase, hrest⟩ := List.forall_mem_cons.1 hsources
    have hkey : base.source.utf8ByteSize + base.key.utf8ByteSize + 8 ≤ partLimit := by
      have := hbase.source
      have := hbase.key
      rw [partLimit]
      omega
    have htable : base.table.utf8ByteSize + base.source.utf8ByteSize + 6 ≤ partLimit := by
      have := hbase.source
      have := hbase.table
      rw [partLimit]
      omega
    have hjoined : ∀ j ∈ rest.map base.join, j.Within partLimit :=
      List.forall_mem_map.2 fun x hx => within_sourceJoin hbase (hrest x hx)
    obtain ⟨ps, hps, hwidth⟩ := within_selectColumn (c := base.keyColumn) hkey htable hjoined
      hconditions
    refine ⟨ps, hps, hwidth.trans ?_⟩
    have hjoins : (rest.map base.join).length + 3 ≤ 66 := by
      rw [List.length_cons] at hlength
      rw [List.length_map]
      omega
    have htests : ((layout parts n).map Prod.snd).length ≤ 64 := by
      rw [List.length_map, length_layout]
      omega
    calc _ ≤ 66 * (partLimit + 6 + 64 * (partLimit + 5) + 1) :=
          Nat.mul_le_mul hjoins (by
            have := Nat.mul_le_mul_right (partLimit + 5) htests
            omega)
      _ ≤ selectionLimit := by decide

/-- A frame adds few bytes to a statement. -/
theorem utf8ByteSize_frame_le (f : Frame) (text : String) :
    (f.text text).utf8ByteSize ≤ text.utf8ByteSize + 1000 := by
  have hframe : f.opening.utf8ByteSize + f.closing.utf8ByteSize ≤ 1000 := by
    cases f <;> decide +kernel
  rw [Frame.text, String.utf8ByteSize_append, String.utf8ByteSize_append]
  omega

section

variable {s : Search} {catalog : Catalog} (hfit : s.filters.Fit catalog)
  (hstats : ∀ c ∈ s.filters.active, c = .stat ∨ c = .statVersusStat)
  (hprintable : s.filters.arePrintable = true)
  (hfew : ∀ c ∈ s.filters.active, tableCount c (s.filters.entries c).length ≤ joinLimit)

theorem active_length_le (f : Filters) : f.active.length ≤ 15 :=
  (List.length_filter_le _ _).trans (by decide)

include hstats in
theorem comparesNumbers_of_stats : ∀ c ∈ s.filters.active, c.comparesNumbers = true := by
  intro c hc
  rcases hstats c hc with rfl | rfl <;> rfl

include hprintable in
/-- The integers that statistics are compared with can all be written. -/
theorem isWritable_statTests {x : StatTest} (hx : x ∈ statTests (s.filters.entries .stat)) :
    Text.IsWritable x.value := by
  obtain ⟨e, he, hsome⟩ := List.mem_filterMap.1 hx
  have hall := List.all_eq_true.1 hprintable _ (mem_entries.1 he)
  split at hsome
  · cases hsome
    rw [Entry.isPrintable, decide_eq_true_eq] at hall
    exact Text.isWritable_iff.2 hall
  · cases hsome

include hfit hstats hprintable hfew

/-- Every selection of a search that compares statistics is short. -/
theorem within_comparisonSelects :
    ∀ sel ∈ comparisonSelects s.filters, sel.Within selectionLimit := by
  intro sel hsel
  obtain ⟨_, hpart, n, hn, rfl⟩ := mem_layout_le hsel
  obtain ⟨c, hc, rfl⟩ := List.mem_map.1 hpart
  have hnumbers := comparesNumbers_of_stats hstats
  have hcfit : ∀ d, ∀ e ∈ s.filters.entries d, e.Fits catalog d :=
    fun d e he => fits_of_mem_entries hfit he
  -- at most one category for each alias of a table, and few tables for each of them
  have hsizes : sizes (s.filters.active.map fun d => comparisonSelect d (s.filters.entries d)) ≤
      15 * 64 := by
    have hsum := List.sum_le_card_nsmul ((s.filters.active.map fun d =>
      comparisonSelect d (s.filters.entries d)).map Numbered.size) 64 (by
        simp only [List.mem_map, forall_exists_index, and_imp, forall_apply_eq_imp_iff₂]
        intro d hd
        rw [size_comparisonSelect (hnumbers d hd) (hcfit d)]
        exact hfew d hd)
    rw [List.length_map, List.length_map, smul_eq_mul] at hsum
    exact hsum.trans (Nat.mul_le_mul_right 64 (active_length_le s.filters))
  have hsize := size_comparisonSelect (hnumbers c hc) (hcfit c)
  have hcount := hfew c hc
  have hne := mem_active.1 hc
  have htotal : n + (comparisonSelect c (s.filters.entries c)).size ≤ 1000 := by omega
  rw [← hsize] at hcount
  rcases hstats c hc with rfl | rfl
  · have hsome : (statTests (s.filters.entries .stat)).map StatTest.part ≠ [] := fun h =>
      hne (by rw [← map_statTests (hcfit _), List.map_eq_nil_iff.1 h, List.map_nil])
    exact within_numbers (List.forall_mem_map.2 fun x _ => statPart_plain x)
      (List.forall_mem_map.2 fun x hx => statPart_short (isWritable_statTests hprintable hx))
      hsome hcount htotal
  · have hsome : (versusTests (s.filters.entries .statVersusStat)).map VersusTest.part ≠ [] :=
      fun h => hne (by rw [← map_versusTests (hcfit _), List.map_eq_nil_iff.1 h, List.map_nil])
    exact within_numbers (List.forall_mem_map.2 fun x _ => versusPart_plain x)
      (List.forall_mem_map.2 fun x _ => versusPart_short x) hsome hcount htotal

/-- A statement that compares statistics is not too long, in any frame. -/
theorem short_statistics (f : Frame) {text : String} (htext : s.text? = .ok text) :
    (f.text text).utf8ByteSize ≤ statementLimit := by
  have hnumbers := comparesNumbers_of_stats hstats
  obtain ⟨ps, hps, hwidth⟩ := within_cardsOnly
    (within_comparisonSelects hfit hstats hprintable hfew)
  have hlength : (comparisonSelects s.filters).length ≤ 15 := by
    rw [comparisonSelects, length_layout, List.length_map]
    exact active_length_le s.filters
  have hbytes : text.utf8ByteSize ≤ 200 + 15 * (selectionLimit + 11) := by
    have hwritten : s.text? = .ok (Piece.join ps) := by
      rw [Search.text?, compose, ← Search.statement?, statement_comparisons hfit hnumbers, ok_bind,
        Select.text?, hps]
      rfl
    obtain rfl := Except.ok.inj (htext.symm.trans hwritten)
    rw [utf8ByteSize_join]
    exact hwidth.trans (Nat.add_le_add_left (Nat.mul_le_mul_right _ hlength) 200)
  calc (f.text text).utf8ByteSize
      ≤ text.utf8ByteSize + 1000 := utf8ByteSize_frame_le f text
    _ ≤ 200 + 15 * (selectionLimit + 11) + 1000 := Nat.add_le_add_right hbytes 1000
    _ ≤ statementLimit := by decide

end

end CardArchive
