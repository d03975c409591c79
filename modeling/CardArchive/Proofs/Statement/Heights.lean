import CardArchive.Filter.Compose
import CardArchive.Proofs.Statement.Taken

/-!
# Heights of flat selections

A condition that asks nothing of the database holds no query, so it adds its own height and
nothing below it. A selection is flat if all of its conditions are of this kind: it is as high
as the chain of them, and it reads from its own tables only. A search whose nested selections
are flat adds the height of one of them to its own.

## What this module delivers

* `chained_le`: a chain is no higher than its highest part and its length.
* `Select.IsFlat` and `isFlat_mk`: what a flat selection asks of the database.
* `cardsOnly`: the statement of a search that constrains cards alone, with `depth_cardsOnly`
  and `readsMore_cardsOnly`.
-/

set_option autoImplicit false

namespace CardArchive

/-! ## Chains -/

/-- A chain is no higher than its highest part with one step for each part. -/
theorem chained_le {hs : List Nat} {bound : Nat} (h : ∀ high ∈ hs, high ≤ bound) :
    chained hs ≤ bound + hs.length := by
  -- each further part adds at most one step to what stands before it
  have hfold : ∀ (rest : List Nat) (high steps : Nat), (∀ next ∈ rest, next ≤ bound) →
      high ≤ bound + steps →
      rest.foldl (fun high next => max high next + 1) high ≤ bound + (steps + rest.length) := by
    intro rest
    induction rest with
    | nil => exact fun _ _ _ hhigh => hhigh
    | cons next rest ih =>
      intro high steps hrest hhigh
      obtain ⟨hnext, hrest⟩ := List.forall_mem_cons.1 hrest
      have hstep : max high next + 1 ≤ bound + (steps + 1) := by omega
      refine (ih _ _ hrest hstep).trans (Nat.le_of_eq ?_)
      rw [List.length_cons]
      omega
  cases hs with
  | nil => exact Nat.zero_le _
  | cons first rest =>
    obtain ⟨hfirst, hrest⟩ := List.forall_mem_cons.1 h
    refine (hfold rest first 0 hrest hfirst).trans ?_
    rw [List.length_cons]
    omega

theorem highest_le {hs : List Nat} {bound : Nat} (h : ∀ high ∈ hs, high ≤ bound) :
    highest hs ≤ bound := by
  induction hs with
  | nil => exact Nat.zero_le _
  | cons first rest ih =>
    obtain ⟨hfirst, hrest⟩ := List.forall_mem_cons.1 h
    exact Nat.max_le.2 ⟨hfirst, ih hrest⟩

/-- A literal is at most a number with a sign. -/
theorem Literal.height_le (l : Literal) : l.height ≤ 2 := by
  cases l with
  | integer n =>
    rw [Literal.height]
    split <;> decide
  | text s | unsupported w => exact Nat.le_succ 1

/-! ## Conditions that ask nothing -/

mutual

/-- A condition that asks nothing of the database holds no query, so nothing is nested in it. -/
theorem Expr.depth_of_demands (base : Nat) (e : Expr) (h : e.demands = []) :
    e.depth base = 0 := by
  cases e with
  | inQuery c q negated =>
    cases q with
    | select s =>
      cases s
      cases h
    | intersect parts =>
      cases parts with
      | nil => rfl
      | cons s ss =>
        cases s
        cases h
  | compare l o r =>
    obtain ⟨hl, hr⟩ := List.append_eq_nil_iff.1 h
    rw [Expr.depth, Expr.depth_of_demands base l hl, Expr.depth_of_demands base r hr]
    rfl
  | coalesce v f =>
    obtain ⟨hv, hf⟩ := List.append_eq_nil_iff.1 h
    rw [Expr.depth, Expr.depth_of_demands base v hv, Expr.depth_of_demands base f hf]
    rfl
  | allOf parts => exact depths_of_demands base parts h
  | anyOf parts => exact depths_of_demands base parts h
  | like c w negated => cases h
  | column c | literal l | countDistinct c | inValues c vs negated => rfl

theorem depths_of_demands (base : Nat) (es : List Expr) (h : allDemands es = []) :
    depths base es = 0 := by
  cases es with
  | nil => rfl
  | cons e es =>
    obtain ⟨he, hes⟩ := List.append_eq_nil_iff.1 h
    rw [depths, Expr.depth_of_demands base e he, depths_of_demands base es hes]
    rfl

end

theorem joinDepths_of_demands (base : Nat) {js : List Join} (h : joinDemands js = []) :
    joinDepths base js = 0 := by
  induction js with
  | nil => rfl
  | cons j js ih =>
    cases j with
    | mk table source condition outer =>
      obtain ⟨hj, hjs⟩ := List.append_eq_nil_iff.1 h
      rw [joinDepths, Expr.depth_of_demands base condition hj, ih hjs]
      rfl

/-! ## Flat selections -/

/-- A selection that reads from so many tables, asks nothing else, and adds no more than so
much to the conditions around it. -/
structure Select.IsFlat (s : Select) (sources rise : Nat) : Prop where
  demands : s.demands = [.sources sources]
  height : s.height ≤ rise
  depth : ∀ base, s.depth base ≤ base + rise

theorem isFlat_mk (columns groupBy : List Column) (table source : String) {joins : List Join}
    {conditions : List Expr} {bound : Nat} (hjoins : joinDemands joins = [])
    (hconditions : allDemands conditions = []) (hbound : columnHeight ≤ bound)
    (hhigh : ∀ high ∈ conjunctHeights conditions ++ joinHeights joins, high ≤ bound) :
    (Select.mk columns table source joins conditions groupBy none).IsFlat (joins.length + 1)
      (bound + (conjunctHeights conditions ++ joinHeights joins).length) := by
  have hown : chained (conjunctHeights conditions) ≤
      bound + (conjunctHeights conditions).length :=
    chained_le fun high h => hhigh high (List.mem_append_left _ h)
  have htests := chained_le hhigh
  rw [List.length_append] at htests ⊢
  refine ⟨?_, ?_, fun base => ?_⟩
  · rw [Select.demands, hjoins, hconditions]
    rfl
  · refine highest_le ?_
    simp only [List.forall_mem_cons, List.not_mem_nil, false_implies, implies_true, and_true,
      havingHeight]
    omega
  · simp only [Select.depth, depths_of_demands _ _ hconditions, joinDepths_of_demands _ hjoins,
      havingDepth]
    refine highest_le ?_
    simp only [List.forall_mem_cons, List.not_mem_nil, false_implies, implies_true, and_true]
    omega

/-! ## Searches that constrain cards alone -/

/-- The statement of a search that constrains cards alone. -/
def cardsOnly (outer : String) (selections : List Select) : Select :=
  selectPrintings outer (outerConditions outer (selections.map Fragment.cards))

theorem cardSelections_map (selections : List Select) :
    cardSelections (selections.map Fragment.cards) = selections := by
  rw [cardSelections, List.filterMap_map]
  exact List.filterMap_some

theorem printingConditions_map (selections : List Select) :
    printingConditions (selections.map Fragment.cards) = [] := by
  rw [printingConditions, List.filterMap_map, List.filterMap_eq_nil_iff]
  exact fun _ _ => rfl

section

variable {outer : String} {selections : List Select}

theorem cardsOnly_nil (outer : String) : cardsOnly outer [] = selectPrintings outer [] := rfl

/-- With selections, the card of the printing is looked for in all of them. -/
theorem cardsOnly_of_ne_nil (hne : selections ≠ []) :
    cardsOnly outer selections =
      selectPrintings outer [.inQuery ⟨outer, "card_name"⟩ (.intersect selections) false] := by
  rw [cardsOnly, outerConditions, cardSelections_map, printingConditions_map, if_neg (by simpa),
    List.append_nil]

theorem demands_cardsOnly (outer : String) (selections : List Select) :
    (cardsOnly outer selections).demands = .sources 1 :: selectsDemands selections := by
  cases selections with
  | nil => rfl
  | cons s ss =>
    rw [cardsOnly_of_ne_nil (List.cons_ne_nil s ss)]
    simp only [selectPrintings, Select.demands, allDemands, Expr.demands, Query.demands,
      joinDemands, havingDemands, List.length_nil, List.nil_append, List.append_nil]

theorem texts_cardsOnly (outer : String) (selections : List Select) :
    (cardsOnly outer selections).texts = selectsTexts selections := by
  cases selections with
  | nil => rfl
  | cons s ss =>
    rw [cardsOnly_of_ne_nil (List.cons_ne_nil s ss)]
    simp only [selectPrintings, Select.texts, allTexts, Expr.texts, Query.texts,
      joinsTexts, havingTexts, List.nil_append, List.append_nil]

theorem mem_selectsTexts {x : String} :
    x ∈ selectsTexts selections ↔ ∃ s ∈ selections, x ∈ s.texts := by
  induction selections with
  | nil => simp [selectsTexts]
  | cons s ss ih => rw [selectsTexts, List.mem_append, ih, List.exists_mem_cons_iff]

/-- A search reads from more tables than it may exactly if one of its selections does. -/
theorem readsMore_cardsOnly (outer : String) {limit : Nat} (hlimit : 1 ≤ limit)
    (h : ∀ s ∈ selections, ∃ n, s.demands = [.sources n]) :
    (cardsOnly outer selections).readsMore limit = false ↔
      ∀ s ∈ selections, ∀ n, s.demands = [.sources n] → n ≤ limit := by
  rw [Select.readsMore, demands_cardsOnly, List.any_cons, Bool.or_eq_false_iff, Demand.isMore,
    decide_eq_false_iff_not, Nat.not_lt]
  refine (and_iff_right hlimit).trans ?_
  induction selections with
  | nil => simp [selectsDemands]
  | cons s ss ih =>
    obtain ⟨⟨n, hs⟩, hss⟩ := List.forall_mem_cons.1 h
    rw [selectsDemands, hs, List.any_append, Bool.or_eq_false_iff, ih hss, List.forall_mem_cons, hs]
    simp [Demand.isMore]

theorem hasLongWord_cardsOnly (h : ∀ s ∈ selections, ∃ n, s.demands = [.sources n]) :
    (cardsOnly outer selections).hasLongWord = false := by
  rw [Select.hasLongWord, demands_cardsOnly, List.any_cons, Demand.isLong, Bool.false_or]
  induction selections with
  | nil => rfl
  | cons s ss ih =>
    obtain ⟨⟨n, hs⟩, hss⟩ := List.forall_mem_cons.1 h
    rw [selectsDemands, hs, List.any_append, ih hss]
    rfl

theorem selectsHeight_le {bound : Nat} (h : ∀ s ∈ selections, s.height ≤ bound) :
    selectsHeight selections ≤ bound := by
  induction selections with
  | nil => exact Nat.zero_le _
  | cons s ss ih =>
    obtain ⟨hs, hss⟩ := List.forall_mem_cons.1 h
    exact Nat.max_le.2 ⟨hs, ih hss⟩

theorem selectsDepth_le {base bound : Nat} (h : ∀ s ∈ selections, s.depth base ≤ bound) :
    selectsDepth base selections ≤ bound := by
  induction selections with
  | nil => exact Nat.zero_le _
  | cons s ss ih =>
    obtain ⟨hs, hss⟩ := List.forall_mem_cons.1 h
    exact Nat.max_le.2 ⟨hs, ih hss⟩

/-- A search with flat selections is little higher than two of them, in any frame. -/
theorem depth_cardsOnly {rise : Nat} (hrise : columnHeight ≤ rise)
    (hheight : ∀ s ∈ selections, s.height ≤ rise)
    (hdepth : ∀ s ∈ selections, ∀ base, s.depth base ≤ base + rise) (f : Frame) :
    f.depth (cardsOnly outer selections) ≤ 2 * rise + 8 := by
  have hjoined : joinedHeight = 5 := rfl
  have hboth : (cardsOnly outer selections).depth 0 ≤ 2 * rise + 1 ∧
      (cardsOnly outer selections).testHeight ≤ rise + 1 := by
    cases selections with
    | nil =>
      rw [cardsOnly_nil]
      refine ⟨highest_le ?_, Nat.zero_le _⟩
      have hcolumn : columnHeight = 2 := rfl
      simp only [List.forall_mem_cons, List.not_mem_nil, false_implies, implies_true, and_true,
        depths, joinDepths, havingDepth, chained, conjunctHeights, joinHeights, List.map_nil,
        List.append_nil]
      omega
    | cons s ss =>
      have hnested := selectsHeight_le hheight
      have hbelow : ∀ base, selectsDepth base (s :: ss) ≤ base + rise := fun base =>
        selectsDepth_le fun s hs => hdepth s hs base
      have hown : testHeight false [columnHeight, selectsHeight (s :: ss)] ≤ rise + 1 := by
        simp only [testHeight, highest, List.foldr_cons, List.foldr_nil, Bool.false_eq_true,
          if_false]
        omega
      rw [cardsOnly_of_ne_nil (List.cons_ne_nil s ss)]
      refine ⟨highest_le ?_, hown⟩
      have hdeep := hbelow (testHeight false [columnHeight, selectsHeight (s :: ss)])
      simp only [List.forall_mem_cons, List.not_mem_nil, false_implies, implies_true, and_true,
        conjunctHeights, Expr.height, Query.height, joinHeights, List.map_nil, List.append_nil,
        chained, List.foldl_nil, depths, Expr.depth, Query.depth, joinDepths, havingDepth,
        Nat.zero_add]
      omega
  cases f with
  | alone | counting => exact hboth.1.trans (by omega)
  | listing =>
    rw [Frame.depth, hjoined]
    omega

end

end CardArchive
