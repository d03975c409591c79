import CardArchive.Proofs.Filter.Fragments
import CardArchive.Proofs.Statement.Scope

/-!
# Fragments are well scoped

Every fragment that filters can build reads tables of the schema only, names columns of
its own tables or of the outer printing, and introduces its tables under exactly the
aliases whose numbers it takes, in the order of the text. Laid out in turn behind the
outer alias, the fragments of a search therefore use the numbers from zero on, each
once.

## What this module delivers

* `Fragment.Scoped` and `Fragment.introduced`.
* `Numbered.Takes` and `takes_layout`: parts that introduce the numbers they take.
* `fragmentOf_scoped`: the fragment of each category.
* `statement_scoped`, `statement_introduced`: the statement of filters that fit.
-/

set_option autoImplicit false

namespace CardArchive

variable {α : Type}

/-! ## Aliases in turn -/

/-- A part introduces exactly the aliases whose numbers it takes, in order. -/
def Numbered.Takes (introduced : α → Sources) (x : Numbered α) : Prop :=
  ∀ n, (introduced (x.build n)).map Prod.fst = (List.range' n x.size).map aliasName

/-- Parts that introduce the numbers they take do so one after the other. -/
theorem takes_layout {introduced : α → Sources} {xs : List (Numbered α)}
    (h : ∀ x ∈ xs, x.Takes introduced) (n : Nat) :
    ((layout xs n).flatMap introduced).map Prod.fst =
      (List.range' n (sizes xs)).map aliasName := by
  induction xs generalizing n with
  | nil => rfl
  | cons x xs ih =>
    have hrest := ih (fun y hy => h y (List.mem_cons_of_mem x hy)) (n + x.size)
    rw [layout_cons, List.flatMap_cons, List.map_append, h x List.mem_cons_self n, hrest,
      sizes_cons, ← List.map_append, List.range'_append_1]

/-! ## Columns and tests -/

theorem isSource_alias {table : String} (h : table ∈ tableNames) (n : Nat) :
    IsSource (aliasName n, table) := ⟨⟨n, rfl⟩, h⟩

theorem mem_tableNames_of_hasColumn {table column : String} (h : HasColumn table column) :
    table ∈ tableNames := by
  obtain ⟨columns, hmem, -⟩ := h
  exact List.mem_map.2 ⟨(table, columns), hmem, rfl⟩

theorem offer_of_mem {sources : Sources} (table : String) {source name : String}
    (hmem : (source, table) ∈ sources) (h : HasColumn table name) :
    sources.Offer ⟨source, name⟩ := ⟨table, hmem, h⟩

theorem isOperator_text (o : Operator) : IsOperator o.text := by
  apply List.mem_map_of_mem
  cases o <;> decide

theorem inTexts_scoped {sources : Sources} {c : Column} (h : sources.Offer c)
    (values : List String) (negated : Bool) : (inTexts c values negated).Scoped sources := by
  refine ⟨h, ?_⟩
  intro v hv
  obtain ⟨s, -, rfl⟩ := List.mem_map.1 hv
  trivial

/-- The tests for words are those of the modes that have words. -/
theorem mem_wordConditions {p : Partition} {c : Column} {e : Expr} :
    e ∈ p.wordConditions c ↔ ∃ m, p.byMode m ≠ [] ∧ e = wordCondition c m (p.byMode m) := by
  rw [Partition.wordConditions, List.mem_filterMap]
  constructor
  · rintro ⟨m, -, hm⟩
    split at hm
    · cases hm
    · rename_i hne
      cases hm
      exact ⟨m, by simpa using hne, rfl⟩
  · rintro ⟨m, hne, rfl⟩
    refine ⟨m, by cases m <;> decide, ?_⟩
    rw [if_neg (by simpa using hne)]

theorem wordCondition_scoped {sources : Sources} {c : Column} (h : sources.Offer c) (m : Mode)
    {words : List String} (hne : words ≠ []) : (wordCondition c m words).Scoped sources := by
  have hwords : ∀ negated, allScoped sources (words.map fun w => .like c w negated) := by
    intro negated
    rw [allScoped_iff]
    intro e he
    obtain ⟨w, -, rfl⟩ := List.mem_map.1 he
    exact h
  cases m with
  | mustInclude => exact ⟨by simpa using hne, hwords false⟩
  | disallow => exact ⟨by simpa using hne, hwords true⟩
  | oneOf => exact ⟨by simpa using hne, hwords false⟩

/-- Tests for words are scoped where their column is. -/
theorem wordConditions_scoped {sources : Sources} {c : Column} (h : sources.Offer c)
    (p : Partition) : allScoped sources (p.wordConditions c) := by
  rw [allScoped_iff]
  intro e he
  obtain ⟨m, hne, rfl⟩ := mem_wordConditions.1 he
  exact wordCondition_scoped h m hne

theorem allIntroduced_eq_nil {es : List Expr} (h : ∀ e ∈ es, e.introduced = []) :
    allIntroduced es = [] := by
  induction es with
  | nil => rfl
  | cons e es ih =>
    rw [allIntroduced, h e List.mem_cons_self, ih fun f hf => h f (List.mem_cons_of_mem e hf)]
    rfl

theorem wordCondition_introduced (c : Column) (m : Mode) (words : List String) :
    (wordCondition c m words).introduced = [] := by
  have hwords : ∀ negated, allIntroduced (words.map fun w => .like c w negated) = [] := by
    intro negated
    apply allIntroduced_eq_nil
    intro e he
    obtain ⟨w, -, rfl⟩ := List.mem_map.1 he
    rfl
  cases m with
  | mustInclude => exact hwords false
  | disallow => exact hwords true
  | oneOf => exact hwords false

/-- Tests for words introduce no table. -/
theorem wordConditions_introduced (p : Partition) (c : Column) :
    allIntroduced (p.wordConditions c) = [] := by
  apply allIntroduced_eq_nil
  intro e he
  obtain ⟨m, -, rfl⟩ := mem_wordConditions.1 he
  exact wordCondition_introduced c m _

/-! ## Nested selections -/

theorem selectCovering_scoped {n : Nat} {table column : String}
    (hkey : HasColumn table "card_name") (hcolumn : HasColumn table column)
    (values : List String) :
    (selectCovering ⟨aliasName n, "card_name"⟩ table [] ⟨aliasName n, column⟩ values).Scoped := by
  have hcol : Sources.Offer [(aliasName n, table)] ⟨aliasName n, column⟩ :=
    offer_of_mem _ List.mem_cons_self hcolumn
  have hcard : Sources.Offer [(aliasName n, table)] ⟨aliasName n, "card_name"⟩ :=
    offer_of_mem _ List.mem_cons_self hkey
  refine ⟨?_, by simp, ?_, trivial, ⟨inTexts_scoped hcol values false, trivial⟩,
    ⟨hcol, isOperator_text .equal, trivial⟩⟩
  · intro p hp
    rw [List.mem_singleton.1 hp]
    exact isSource_alias (mem_tableNames_of_hasColumn hkey) n
  · intro c hc
    simp only [List.cons_append, List.nil_append, List.mem_cons, List.not_mem_nil,
      or_false, or_self] at hc
    rw [hc]
    exact hcard

/-- A selection of one column of one table under conditions on this table. -/
theorem selectColumn_scoped {n : Nat} {table key : String} (hkey : HasColumn table key)
    {conditions : List Expr} (h : allScoped [(aliasName n, table)] conditions) :
    (selectColumn ⟨aliasName n, key⟩ table [] conditions).Scoped := by
  refine ⟨?_, by simp, ?_, trivial, h, trivial⟩
  · intro p hp
    rw [List.mem_singleton.1 hp]
    exact isSource_alias (mem_tableNames_of_hasColumn hkey) n
  · intro c hc
    rw [List.append_nil] at hc
    rw [List.mem_singleton.1 hc]
    exact offer_of_mem _ List.mem_cons_self hkey

/-- The tables that a nested selection introduces. -/
def nestedIntroduced (s : Select × Bool) : Sources := s.1.introduced

/-- A nested selection that is scoped at every number and introduces the numbers it
takes. -/
structure Numbered.NestedScoped (x : Numbered (Select × Bool)) : Prop where
  reads : ∀ n, (x.build n).1.Scoped
  takes : x.Takes nestedIntroduced

theorem coveringNested_scoped {table column : String} (hkey : HasColumn table "card_name")
    (hcolumn : HasColumn table column) (values : List String) :
    (coveringNested table column values).NestedScoped :=
  ⟨fun _ => selectCovering_scoped hkey hcolumn values, fun _ => rfl⟩

theorem memberNested_scoped {table column : String} (hkey : HasColumn table "card_name")
    (hcolumn : HasColumn table column) (values : List String) (negated : Bool) :
    (memberNested table column values negated).NestedScoped := by
  refine ⟨fun n => selectColumn_scoped hkey ⟨inTexts_scoped ?_ values false, trivial⟩, fun _ => rfl⟩
  exact offer_of_mem _ List.mem_cons_self hcolumn

/-- The sources of a printing with its block. -/
theorem blockSources_scoped (n : Nat) :
    (∀ p ∈ [(aliasName n, printingTable), (aliasName (n + 1), "Block")], IsSource p) ∧
      joinsScoped [(aliasName n, printingTable)] [blockJoin (aliasName n) (aliasName (n + 1))] := by
  refine ⟨?_, ⟨⟨?_, isOperator_text .equal, ?_⟩, trivial⟩⟩
  · intro p hp
    simp only [List.mem_cons, List.not_mem_nil, or_false] at hp
    rcases hp with rfl | rfl
    · exact isSource_alias (by decide) n
    · exact isSource_alias (by decide) (n + 1)
  · exact offer_of_mem printingTable (by simp) (by decide)
  · exact offer_of_mem "Block" (by simp) (by decide)

theorem blockCoveringNested_scoped (blocks : List String) :
    (blockCoveringNested blocks).NestedScoped := by
  refine ⟨fun n => ?_, fun _ => rfl⟩
  obtain ⟨hsources, hjoins⟩ := blockSources_scoped n
  have hblock : Sources.Offer [(aliasName n, printingTable), (aliasName (n + 1), "Block")]
      ⟨aliasName (n + 1), "block"⟩ := offer_of_mem "Block" (by simp) (by decide)
  refine ⟨hsources, by simp, ?_, hjoins, ⟨inTexts_scoped hblock blocks false, trivial⟩,
    ⟨hblock, isOperator_text .equal, trivial⟩⟩
  intro c hc
  simp only [List.cons_append, List.nil_append, List.mem_cons, List.not_mem_nil, or_false,
    or_self] at hc
  rw [hc]
  exact offer_of_mem printingTable (by simp [Join.named]) (by decide)

theorem blockMemberNested_scoped (blocks : List String) :
    (blockMemberNested blocks).NestedScoped := by
  refine ⟨fun n => ?_, fun _ => rfl⟩
  obtain ⟨hsources, hjoins⟩ := blockSources_scoped n
  have hblock : Sources.Offer [(aliasName n, printingTable), (aliasName (n + 1), "Block")]
      ⟨aliasName (n + 1), "block"⟩ := offer_of_mem "Block" (by simp) (by decide)
  refine ⟨hsources, by simp, ?_, hjoins, ⟨inTexts_scoped hblock blocks false, trivial⟩, trivial⟩
  intro c hc
  rw [List.append_nil] at hc
  rw [List.mem_singleton.1 hc]
  exact offer_of_mem printingTable (by simp [Join.named]) (by decide)

/-- Tests of the card by nested selections, where the card is known. -/
theorem nestedTests_scoped {xs : List (Numbered (Select × Bool))} (h : ∀ x ∈ xs, x.NestedScoped)
    {sources : Sources} {key : Column} (hkey : sources.Offer key) (n : Nat) :
    allScoped sources ((layout xs n).map (cardTest key)) := by
  rw [allScoped_iff]
  intro e he
  obtain ⟨s, hs, rfl⟩ := List.mem_map.1 he
  obtain ⟨x, hx, m, -, rfl⟩ := mem_layout hs
  exact ⟨hkey, (h x hx).reads m⟩

theorem nestedTests_introduced (nested : List (Select × Bool)) (key : Column) :
    allIntroduced (nested.map (cardTest key)) = nested.flatMap nestedIntroduced := by
  induction nested with
  | nil => rfl
  | cons s nested ih =>
    rw [List.map_cons, List.flatMap_cons, allIntroduced, ih]
    rfl

theorem nestedTests_takes {xs : List (Numbered (Select × Bool))} (h : ∀ x ∈ xs, x.NestedScoped)
    (key : Column) (n : Nat) :
    (allIntroduced ((layout xs n).map (cardTest key))).map Prod.fst =
      (List.range' n (sizes xs)).map aliasName := by
  rw [nestedTests_introduced]
  exact takes_layout (fun x hx => (h x hx).takes) n

theorem sideTable_columns (c : Category) :
    HasColumn c.sideTable.1 "card_name" ∧ HasColumn c.sideTable.1 c.sideTable.2 := by
  cases c <;> decide

theorem printingColumn_column (c : Category) : HasColumn printingTable c.printingColumn := by
  cases c <;> decide

theorem sideNested_scoped (c : Category) (p : Partition) :
    ∀ x ∈ sideNested c p, x.NestedScoped := by
  obtain ⟨hkey, hcolumn⟩ := sideTable_columns c
  intro x hx
  simp only [sideNested, List.mem_append, mem_given] at hx
  rcases hx with (⟨-, rfl⟩ | ⟨-, rfl⟩) | ⟨-, rfl⟩
  · exact coveringNested_scoped hkey hcolumn _
  · exact memberNested_scoped hkey hcolumn _ _
  · exact memberNested_scoped hkey hcolumn _ _

theorem printingNested_scoped (c : Category) (p : Partition) :
    ∀ x ∈ printingNested c p, x.NestedScoped := by
  intro x hx
  simp only [printingNested, List.mem_append, mem_given] at hx
  rcases hx with ⟨-, rfl⟩ | ⟨-, rfl⟩
  · exact coveringNested_scoped (by decide) (printingColumn_column c) _
  · exact memberNested_scoped (by decide) (printingColumn_column c) _ _

theorem blockNested_scoped (p : Partition) : ∀ x ∈ blockNested p, x.NestedScoped := by
  intro x hx
  simp only [blockNested, List.mem_append, mem_given] at hx
  rcases hx with ⟨-, rfl⟩ | ⟨-, rfl⟩
  · exact blockCoveringNested_scoped _
  · exact blockMemberNested_scoped _

/-! ## Fragments -/

/-- The outer printing, as a source of the conditions on it. -/
def outerSources (outer : String) : Sources := [(outer, printingTable)]

/-- A fragment that can be read: a selection by itself, a condition where the outer
printing is known. -/
def Fragment.Scoped (outer : String) : Fragment → Prop
  | .cards s => s.Scoped
  | .printings e => e.Scoped (outerSources outer)

/-- The tables that a fragment introduces. -/
def Fragment.introduced : Fragment → Sources
  | .cards s => s.introduced
  | .printings e => e.introduced

/-- A fragment that is scoped at every number and introduces the numbers it takes. -/
structure Numbered.FragmentScoped (outer : String) (x : Numbered Fragment) : Prop where
  reads : ∀ n, (x.build n).Scoped outer
  takes : x.Takes Fragment.introduced

theorem wordsFragment_scoped (outer : String) {c : Category}
    (hc : HasColumn "Card" c.wordColumn) (p : Partition) :
    (wordsFragment c p).FragmentScoped outer := by
  refine ⟨fun n => ?_, fun n => ?_⟩
  · exact selectColumn_scoped (by decide)
      (wordConditions_scoped (offer_of_mem _ List.mem_cons_self hc) p)
  · have htables : ((wordsFragment c p).build n).introduced = (aliasName n, "Card") ::
        allIntroduced (p.wordConditions ⟨aliasName n, c.wordColumn⟩) := by
      simp [wordsFragment, Fragment.introduced, selectColumn, Select.introduced, joinsIntroduced,
        havingIntroduced]
    rw [htables, wordConditions_introduced]
    rfl

/-- The row's own value is tested only if some value is asked for, and then it is tested
against texts. -/
theorem mem_sideOwn {p : Partition} {value : Column} {e : Expr} (h : e ∈ sideOwn p value) :
    p.included.isEmpty = false ∧ ∃ values negated, e = inTexts value values negated := by
  cases hin : p.included.isEmpty with
  | true => simp [sideOwn, hin] at h
  | false =>
    refine ⟨rfl, ?_⟩
    rw [sideOwn, hin, List.mem_append] at h
    rcases h with h | h
    · split at h
      · exact ⟨p.disallow, true, List.mem_singleton.1 h⟩
      · cases h
    · exact ⟨p.included, false, List.mem_singleton.1 h⟩

theorem sideOwn_introduced (p : Partition) (value : Column) :
    allIntroduced (sideOwn p value) = [] := by
  apply allIntroduced_eq_nil
  intro e he
  obtain ⟨-, values, negated, rfl⟩ := mem_sideOwn he
  rfl

/-- The table that a side fragment selects from has the column that names the card, and
the column of the values if these are tested. -/
theorem sideFragment_scoped (outer : String) (c : Category) (p : Partition) :
    (sideFragment c p).FragmentScoped outer := by
  obtain ⟨hkey, hcolumn⟩ := sideTable_columns c
  refine ⟨fun n => ?_, fun n => ?_⟩
  · have hname : HasColumn (if !p.included.isEmpty then c.sideTable.1 else "Card")
        (if !p.included.isEmpty then "card_name" else "name") := by
      cases p.included.isEmpty with
      | true => exact (by decide : HasColumn "Card" "name")
      | false => exact hkey
    apply selectColumn_scoped hname
    rw [allScoped_iff]
    intro e he
    rcases List.mem_append.1 he with he | he
    · -- the own value is tested only where the table is that of the values
      obtain ⟨hin, values, negated, rfl⟩ := mem_sideOwn he
      rw [hin]
      exact inTexts_scoped (offer_of_mem _ List.mem_cons_self hcolumn) values negated
    · exact allScoped_iff.1 (nestedTests_scoped (sideNested_scoped c p)
        (offer_of_mem _ List.mem_cons_self hname) (n + 1)) e he
  · -- the own table comes first, as in the text
    have htables : ((sideFragment c p).build n).introduced =
        (aliasName n, if !p.included.isEmpty then c.sideTable.1 else "Card") ::
          (allIntroduced (sideOwn p ⟨aliasName n, c.sideTable.2⟩) ++
            allIntroduced ((layout (sideNested c p) (n + 1)).map
              (cardTest (sideKey p (aliasName n))))) := by
      simp [sideFragment, Fragment.introduced, selectColumn, Select.introduced, joinsIntroduced,
        havingIntroduced, sideKey]
    have hsize : (sideFragment c p).size = sizes (sideNested c p) + 1 := Nat.add_comm _ _
    rw [htables, sideOwn_introduced, List.nil_append, List.map_cons,
      nestedTests_takes (sideNested_scoped c p), hsize, List.range'_succ]
    rfl

/-- A value of some mode is included or forbidden. -/
theorem included_or_disallow {p : Partition} (h : ∃ m v, v ∈ p.byMode m) :
    p.included ≠ [] ∨ p.disallow ≠ [] := by
  obtain ⟨m, v, hv⟩ := h
  have hincluded : v ∈ p.must ++ p.oneOf → p.included ≠ [] := by
    intro hv
    exact List.ne_nil_of_mem (List.mem_eraseDups.2 hv)
  cases m with
  | mustInclude => exact .inl (hincluded (List.mem_append_left _ hv))
  | disallow => exact .inr (List.ne_nil_of_mem hv)
  | oneOf => exact .inl (hincluded (List.mem_append_right _ hv))

theorem mem_ownTests {c : Column} {forbidden included : Option (List String)} {e : Expr}
    (h : e ∈ ownTests c forbidden included) : ∃ values negated, e = inTexts c values negated := by
  rcases List.mem_append.1 h with h | h
  · cases forbidden with
    | none => cases h
    | some vs => exact ⟨vs, true, List.mem_singleton.1 h⟩
  · cases included with
    | none => cases h
    | some vs => exact ⟨vs, false, List.mem_singleton.1 h⟩

theorem ownTests_scoped {sources : Sources} {c : Column} (h : sources.Offer c)
    (forbidden included : Option (List String)) :
    allScoped sources (ownTests c forbidden included) := by
  rw [allScoped_iff]
  intro e he
  obtain ⟨values, negated, rfl⟩ := mem_ownTests he
  exact inTexts_scoped h values negated

theorem ownTests_introduced (c : Column) (forbidden included : Option (List String)) :
    allIntroduced (ownTests c forbidden included) = [] := by
  apply allIntroduced_eq_nil
  intro e he
  obtain ⟨values, negated, rfl⟩ := mem_ownTests he
  rfl

theorem ownTests_ne_nil {c : Column} {forbidden included : Option (List String)}
    (h : included.isSome = true ∨ forbidden.isSome = true) :
    ownTests c forbidden included ≠ [] := by
  rcases h with h | h
  · obtain ⟨vs, rfl⟩ := Option.isSome_iff_exists.1 h
    simp [ownTests]
  · obtain ⟨vs, rfl⟩ := Option.isSome_iff_exists.1 h
    simp [ownTests]

theorem isSome_nonempty {vs : List String} (h : vs ≠ []) : (nonempty? vs).isSome = true := by
  simp [nonempty?, h]

/-- A condition on the printing: tests of its own value, and tests of its card by nested
selections. -/
theorem ownAndNested_scoped {outer value : String} (hvalue : HasColumn printingTable value)
    {forbidden included : Option (List String)}
    (hsome : included.isSome = true ∨ forbidden.isSome = true)
    {xs : List (Numbered (Select × Bool))} (hxs : ∀ x ∈ xs, x.NestedScoped) :
    Numbered.FragmentScoped outer ⟨sizes xs, fun n => .printings (.allOf
      (ownTests ⟨outer, value⟩ forbidden included ++
        (layout xs n).map (cardTest ⟨outer, "card_name"⟩)))⟩ := by
  refine ⟨fun n => ⟨?_, ?_⟩, fun n => ?_⟩
  · intro hnil
    exact ownTests_ne_nil hsome (List.append_eq_nil_iff.1 hnil).1
  · rw [allScoped_iff]
    intro e he
    rcases List.mem_append.1 he with he | he
    · exact allScoped_iff.1 (ownTests_scoped (offer_of_mem _ List.mem_cons_self hvalue) _ _) e he
    · exact allScoped_iff.1 (nestedTests_scoped hxs
        (offer_of_mem printingTable List.mem_cons_self (by decide)) n) e he
  · change (allIntroduced (_ ++ _)).map Prod.fst = _
    rw [allIntroduced_append, ownTests_introduced, List.nil_append, nestedTests_takes hxs]

section

variable {p : Partition} (hp : ∃ m v, v ∈ p.byMode m)
include hp

theorem printingFragment_scoped (outer : String) (c : Category) :
    (printingFragment outer c p).FragmentScoped outer := by
  have hsome : (nonempty? p.included).isSome = true ∨ (nonempty? p.disallow).isSome = true :=
    (included_or_disallow hp).imp isSome_nonempty isSome_nonempty
  exact ownAndNested_scoped (printingColumn_column c) hsome (printingNested_scoped c p)

theorem blockFragment_scoped (ctx : Context) : (blockFragment ctx p).FragmentScoped ctx.outer := by
  have hsome : ((nonempty? p.included).map ctx.blocks.setsOfAll).isSome = true ∨
      ((nonempty? p.disallow).map ctx.blocks.setsOfAll).isSome = true := by
    rw [Option.isSome_map, Option.isSome_map]
    exact (included_or_disallow hp).imp isSome_nonempty isSome_nonempty
  exact ownAndNested_scoped (by decide) hsome (blockNested_scoped p)

theorem flavorFragment_scoped (outer : String) :
    (flavorFragment outer p).FragmentScoped outer := by
  refine ⟨fun n => ⟨?_, ?_⟩, fun n => ?_⟩
  · obtain ⟨m, v, hv⟩ := hp
    have hne : p.byMode m ≠ [] := List.ne_nil_of_mem hv
    exact List.ne_nil_of_mem (mem_wordConditions.2 ⟨m, hne, rfl⟩)
  · exact wordConditions_scoped
      (offer_of_mem printingTable List.mem_cons_self (by decide)) p
  · change (allIntroduced (p.wordConditions _)).map Prod.fst = _
    rw [wordConditions_introduced]
    rfl

end

/-! ## Comparisons -/

theorem stat_place (s : Stat) :
    HasColumn s.place.1 s.place.2.1 ∧ HasColumn s.place.1 s.place.2.2 := by
  cases s <;> decide

/-- A source as it is named in a selection. -/
def Source.named (s : Source) : String × String := (s.source, s.table)

/-- A source of a table of the schema that has the column naming the card. -/
def Source.IsNumbered (s : Source) : Prop :=
  (∃ n, s.source = aliasName n) ∧ HasColumn s.table s.key

/-- Sources and a condition of a comparison: the condition names the sources only, and
they take the numbers of the part. -/
structure Numbered.PartScoped (x : Numbered (List Source × Expr)) : Prop where
  sources : ∀ n, ∀ s ∈ (x.build n).1, s.IsNumbered
  reads : ∀ n sources, (∀ s ∈ (x.build n).1, s.named ∈ sources) → (x.build n).2.Scoped sources
  introduced : ∀ n, (x.build n).2.introduced = []
  takes : x.Takes fun p => p.1.map Source.named
  positive : 0 < x.size

theorem isNumbered_statSource (s : Stat) (n : Nat) : (statSource s n).IsNumbered :=
  ⟨⟨n, rfl⟩, (stat_place s).2⟩

theorem offer_statValue {sources : Sources} {s : Stat} {n : Nat}
    (h : (statSource s n).named ∈ sources) : sources.Offer (statValue s n) :=
  ⟨s.place.1, h, (stat_place s).1⟩

theorem statPart_scoped (x : StatTest) : x.part.PartScoped := by
  refine ⟨fun n s hs => ?_, fun n sources hs => ?_, fun n => rfl, fun n => rfl, Nat.one_pos⟩
  · rw [List.mem_singleton.1 hs]
    exact isNumbered_statSource x.stat n
  · exact ⟨offer_statValue (hs _ List.mem_cons_self), isOperator_text x.operator, trivial⟩

theorem versusPart_scoped (x : VersusTest) : x.part.PartScoped := by
  refine ⟨fun n s hs => ?_, fun n sources hs => ?_, fun n => rfl, fun n => rfl, Nat.two_pos⟩
  · simp only [VersusTest.part, List.mem_cons, List.not_mem_nil, or_false] at hs
    rcases hs with rfl | rfl
    · exact isNumbered_statSource x.left n
    · exact isNumbered_statSource x.right (n + 1)
  · refine ⟨offer_statValue (hs _ List.mem_cons_self), isOperator_text x.operator, ?_⟩
    exact offer_statValue (hs _ (List.mem_cons_of_mem _ List.mem_cons_self))

/-- Joins of sources with the first one, on the card. -/
theorem sourceJoins_scoped {base : Source} {rest : List Source} {sources : Sources}
    (hbase : sources.Offer base.keyColumn) (hrest : ∀ s ∈ rest, s.IsNumbered) :
    joinsScoped sources (rest.map base.join) := by
  induction rest generalizing sources with
  | nil => trivial
  | cons s rest ih =>
    obtain ⟨table, hmem, hcolumn⟩ := hbase
    have hmore : Sources.Offer (sources ++ [s.named]) base.keyColumn :=
      ⟨table, List.mem_append_left _ hmem, hcolumn⟩
    have hown : Sources.Offer (sources ++ [s.named]) s.keyColumn :=
      ⟨s.table, List.mem_append_right _ List.mem_cons_self, (hrest s List.mem_cons_self).2⟩
    refine ⟨⟨hmore, isOperator_text .equal, hown⟩, ?_⟩
    exact ih hmore fun t ht => hrest t (List.mem_cons_of_mem s ht)

theorem joinsIntroduced_sources (base : Source) (rest : List Source) :
    joinsIntroduced (rest.map base.join) = rest.map Source.named := by
  induction rest with
  | nil => rfl
  | cons s rest ih =>
    rw [List.map_cons, joinsIntroduced, ih]
    rfl

theorem named_sources (base : Source) (rest : List Source) :
    (rest.map base.join).map Join.named = rest.map Source.named := by
  rw [List.map_map]
  rfl

theorem isSource_of_isNumbered {s : Source} (h : s.IsNumbered) : IsSource s.named :=
  ⟨h.1, mem_tableNames_of_hasColumn h.2⟩

/-- A selection of cards under conditions on several sources. -/
theorem selectNumbers_scoped {base : Source} {rest : List Source} {conditions : List Expr}
    (hnumbered : ∀ s ∈ base :: rest, s.IsNumbered)
    (hconditions : allScoped ((base :: rest).map Source.named) conditions) :
    (selectNumbers (base :: rest) conditions).Scoped := by
  have hbase := hnumbered base List.mem_cons_self
  have hkey : ∀ more, Sources.Offer (base.named :: more) base.keyColumn :=
    fun more => ⟨base.table, List.mem_cons_self, hbase.2⟩
  refine ⟨?_, by simp, ?_, ?_, ?_, trivial⟩
  · intro p hp
    rw [named_sources] at hp
    have hp : p ∈ (base :: rest).map Source.named := hp
    obtain ⟨s, hs, rfl⟩ := List.mem_map.1 hp
    exact isSource_of_isNumbered (hnumbered s hs)
  · intro c hc
    rw [List.append_nil] at hc
    rw [List.mem_singleton.1 hc]
    exact hkey _
  · exact sourceJoins_scoped (hkey []) fun s hs => hnumbered s (List.mem_cons_of_mem base hs)
  · rw [named_sources]
    exact hconditions

theorem selectNumbers_introduced (base : Source) (rest : List Source) {conditions : List Expr}
    (h : allIntroduced conditions = []) :
    (selectNumbers (base :: rest) conditions).introduced = (base :: rest).map Source.named := by
  simp only [selectNumbers, selectColumn, Select.introduced, h, havingIntroduced,
    joinsIntroduced_sources, List.append_nil, List.map_cons]
  rfl

section

variable {parts : List (Numbered (List Source × Expr))} (hparts : ∀ x ∈ parts, x.PartScoped)
include hparts

theorem parts_numbered (n : Nat) : ∀ s ∈ (layout parts n).flatMap Prod.fst, s.IsNumbered := by
  intro s hs
  obtain ⟨p, hp, hs⟩ := List.mem_flatMap.1 hs
  obtain ⟨x, hx, m, -, rfl⟩ := mem_layout hp
  exact (hparts x hx).sources m s hs

theorem parts_takes (n : Nat) :
    (((layout parts n).flatMap Prod.fst).map Source.named).map Prod.fst =
      (List.range' n (sizes parts)).map aliasName := by
  rw [← takes_layout (fun x hx => (hparts x hx).takes) n, List.map_flatMap]

theorem parts_sources_ne_nil (hne : parts ≠ []) (n : Nat) :
    (layout parts n).flatMap Prod.fst ≠ [] := by
  intro hnil
  have hlength := congrArg List.length (parts_takes hparts n)
  rw [hnil] at hlength
  obtain ⟨x, rest, rfl⟩ := List.exists_cons_of_ne_nil hne
  have hpositive := (hparts x List.mem_cons_self).positive
  simp only [List.map_nil, List.length_nil, sizes_cons, List.length_map,
    List.length_range'] at hlength
  omega

theorem parts_conditions_scoped {n : Nat} {sources : Sources}
    (hs : ∀ s ∈ (layout parts n).flatMap Prod.fst, s.named ∈ sources) :
    allScoped sources ((layout parts n).map Prod.snd) := by
  rw [allScoped_iff]
  intro e he
  obtain ⟨p, hp, rfl⟩ := List.mem_map.1 he
  obtain ⟨x, hx, m, -, rfl⟩ := mem_layout hp
  exact (hparts x hx).reads m sources fun s h => hs s (List.mem_flatMap.2 ⟨_, hp, h⟩)

theorem parts_conditions_introduced (n : Nat) :
    allIntroduced ((layout parts n).map Prod.snd) = [] := by
  apply allIntroduced_eq_nil
  intro e he
  obtain ⟨p, hp, rfl⟩ := List.mem_map.1 he
  obtain ⟨x, hx, m, -, rfl⟩ := mem_layout hp
  exact (hparts x hx).introduced m

theorem numbersFragment_scoped (outer : String) (hne : parts ≠ []) :
    (numbersFragment parts).FragmentScoped outer := by
  refine ⟨fun n => ?_, fun n => ?_⟩
  · -- there is a first source, which the selection starts from
    obtain ⟨base, rest, hsources⟩ := List.exists_cons_of_ne_nil (parts_sources_ne_nil hparts hne n)
    have hnumbered := parts_numbered hparts n
    have hconditions : allScoped ((base :: rest).map Source.named)
        ((layout parts n).map Prod.snd) := by
      apply parts_conditions_scoped hparts
      rw [hsources]
      exact fun s hs => List.mem_map_of_mem hs
    rw [hsources] at hnumbered
    change (selectNumbers ((layout parts n).flatMap Prod.fst) _).Scoped
    rw [hsources]
    exact selectNumbers_scoped hnumbered hconditions
  · obtain ⟨base, rest, hsources⟩ := List.exists_cons_of_ne_nil (parts_sources_ne_nil hparts hne n)
    have htakes := parts_takes hparts n
    rw [hsources] at htakes
    change ((selectNumbers ((layout parts n).flatMap Prod.fst) _).introduced).map Prod.fst = _
    rw [hsources, selectNumbers_introduced base rest (parts_conditions_introduced hparts n)]
    exact htakes

end

/-! ## Amounts of mana -/

/-- The joins of amounts of mana for the cards under an alias. -/
theorem manaJoins_scoped {card : String} (xs : List ManaTest) (n : Nat) {sources : Sources}
    (hcard : sources.Offer ⟨card, "name"⟩) :
    joinsScoped sources ((layout (xs.map (ManaTest.part card)) n).map Prod.fst) := by
  induction xs generalizing n sources with
  | nil => trivial
  | cons x xs ih =>
    -- the table of the cards stays known behind each further join
    obtain ⟨table, hmem, hcolumn⟩ := hcard
    have hmore : Sources.Offer (sources ++ [(aliasName n, "Mana")]) ⟨card, "name"⟩ :=
      ⟨table, List.mem_append_left _ hmem, hcolumn⟩
    have hown : ∀ name, HasColumn "Mana" name →
        Sources.Offer (sources ++ [(aliasName n, "Mana")]) ⟨aliasName n, name⟩ :=
      fun name hname => ⟨"Mana", List.mem_append_right _ List.mem_cons_self, hname⟩
    refine ⟨⟨by simp, ⟨hmore, isOperator_text .equal, hown _ (by decide)⟩,
      ⟨hown _ (by decide), isOperator_text .equal, trivial⟩, trivial⟩, ?_⟩
    exact ih (n + 1) hmore

theorem manaNamed (card : String) (xs : List ManaTest) (n : Nat) :
    ((layout (xs.map (ManaTest.part card)) n).map Prod.fst).map Join.named =
      (List.range' n xs.length).map fun m => (aliasName m, "Mana") := by
  induction xs generalizing n with
  | nil => rfl
  | cons x xs ih =>
    rw [List.map_cons, layout_cons, List.map_cons, List.map_cons, List.length_cons,
      List.range'_succ, List.map_cons]
    exact congrArg _ (ih (n + 1))

theorem manaIntroduced (card : String) (xs : List ManaTest) (n : Nat) :
    joinsIntroduced ((layout (xs.map (ManaTest.part card)) n).map Prod.fst) =
      (List.range' n xs.length).map fun m => (aliasName m, "Mana") := by
  induction xs generalizing n with
  | nil => rfl
  | cons x xs ih =>
    rw [List.map_cons, layout_cons, List.map_cons, joinsIntroduced, List.length_cons,
      List.range'_succ, List.map_cons]
    exact congrArg _ (ih (n + 1))

theorem manaConditions_scoped {card : String} (xs : List ManaTest) (n : Nat) {sources : Sources}
    (hs : ∀ m ∈ List.range' n xs.length, (aliasName m, "Mana") ∈ sources) :
    allScoped sources ((layout (xs.map (ManaTest.part card)) n).map Prod.snd) := by
  induction xs generalizing n with
  | nil => trivial
  | cons x xs ih =>
    have hquantity : HasColumn "Mana" "quantity" := by decide
    have hown : sources.Offer ⟨aliasName n, "quantity"⟩ :=
      ⟨"Mana", hs n (by simp [List.mem_range'_1]), hquantity⟩
    refine ⟨⟨⟨hown, trivial⟩, isOperator_text x.operator, trivial⟩, ?_⟩
    apply ih (n + 1)
    intro m hm
    apply hs m
    simp only [List.length_cons, List.mem_range'_1] at hm ⊢
    omega

theorem manaConditions_introduced {card : String} (xs : List ManaTest) (n : Nat) :
    allIntroduced ((layout (xs.map (ManaTest.part card)) n).map Prod.snd) = [] := by
  induction xs generalizing n with
  | nil => rfl
  | cons x xs ih => exact ih (n + 1)

theorem manaFragment_scoped (outer : String) (xs : List ManaTest) :
    (manaFragment xs).FragmentScoped outer := by
  refine ⟨fun n => ⟨?_, by simp, ?_, ?_, ?_, trivial⟩, fun n => ?_⟩
  · intro p hp
    rw [manaNamed] at hp
    rcases List.mem_cons.1 hp with rfl | hp
    · exact isSource_alias (by decide) n
    · obtain ⟨m, -, rfl⟩ := List.mem_map.1 hp
      exact isSource_alias (by decide) m
  · intro c hc
    rw [List.append_nil] at hc
    rw [List.mem_singleton.1 hc]
    exact offer_of_mem "Card" List.mem_cons_self (by decide)
  · exact manaJoins_scoped xs (n + 1)
      (offer_of_mem "Card" List.mem_cons_self (by decide))
  · apply manaConditions_scoped xs (n + 1)
    intro m hm
    rw [manaNamed]
    exact List.mem_cons_of_mem _ (List.mem_map.2 ⟨m, hm, rfl⟩)
  · have htables : ((manaFragment xs).build n).introduced =
        (aliasName n, "Card") ::
          (List.range' (n + 1) xs.length).map fun m => (aliasName m, "Mana") := by
      simp only [manaFragment, Fragment.introduced, selectColumn, Select.introduced,
        manaIntroduced, manaConditions_introduced, havingIntroduced, List.append_nil]
    have hsize : (manaFragment xs).size = xs.length + 1 := Nat.add_comm _ _
    rw [htables, hsize, List.range'_succ, List.map_cons, List.map_cons, List.map_map]
    rfl

/-! ## The statement of a search -/

/-- The fragment of a category with filters that it can hold is scoped and introduces the
numbers that it takes. -/
theorem fragmentOf_scoped {catalog : Catalog} (ctx : Context) {c : Category} {es : List Entry}
    (hne : es ≠ []) (hfit : ∀ e ∈ es, e.Fits catalog c) :
    (fragmentOf ctx c es).FragmentScoped ctx.outer := by
  -- a category of values has a value in some mode, so none of its conditions is empty
  have hvalues : c.comparesNumbers = false → ∃ m v, v ∈ (split es).byMode m := fun hc =>
    exists_mem_byMode hne fun e he => isValue_of_fits hc (hfit e he)
  cases c with
  | name => exact wordsFragment_scoped ctx.outer (by decide) (split es)
  | text => exact wordsFragment_scoped ctx.outer (by decide) (split es)
  | color => exact sideFragment_scoped ctx.outer .color (split es)
  | colorIdentity => exact sideFragment_scoped ctx.outer .colorIdentity (split es)
  | supertype => exact sideFragment_scoped ctx.outer .supertype (split es)
  | type => exact sideFragment_scoped ctx.outer .type (split es)
  | subtype => exact sideFragment_scoped ctx.outer .subtype (split es)
  | stat =>
    apply numbersFragment_scoped
    · intro x hx
      obtain ⟨y, -, rfl⟩ := List.mem_map.1 hx
      exact statPart_scoped y
    · intro hnil
      have hback := map_statTests hfit
      rw [List.map_eq_nil_iff.1 hnil] at hback
      exact hne hback.symm
  | statVersusStat =>
    apply numbersFragment_scoped
    · intro x hx
      obtain ⟨y, -, rfl⟩ := List.mem_map.1 hx
      exact versusPart_scoped y
    · intro hnil
      have hback := map_versusTests hfit
      rw [List.map_eq_nil_iff.1 hnil] at hback
      exact hne hback.symm
  | manaType => exact manaFragment_scoped ctx.outer (manaTests es)
  | block => exact blockFragment_scoped (hvalues rfl) ctx
  | set => exact printingFragment_scoped (hvalues rfl) ctx.outer .set
  | artist => exact printingFragment_scoped (hvalues rfl) ctx.outer .artist
  | rarity => exact printingFragment_scoped (hvalues rfl) ctx.outer .rarity
  | flavorText => exact flavorFragment_scoped (hvalues rfl) ctx.outer

/-- Whether a fragment constrains the card. -/
def Fragment.isCards : Fragment → Bool
  | .cards _ => true
  | .printings _ => false

theorem fragmentOf_isCards (ctx : Context) (c : Category) (es : List Entry) (n : Nat) :
    ((fragmentOf ctx c es).build n).isCards = c.isCardLevel := by
  cases c <;> rfl

theorem introduced_of_isCards {fs : List Fragment} (h : ∀ x ∈ fs, x.isCards = true) :
    selectsIntroduced (cardSelections fs) = fs.flatMap Fragment.introduced ∧
      printingConditions fs = [] := by
  induction fs with
  | nil => exact ⟨rfl, rfl⟩
  | cons x fs ih =>
    obtain ⟨htables, hnone⟩ := ih fun y hy => h y (List.mem_cons_of_mem x hy)
    cases x with
    | printings e => exact absurd (h _ List.mem_cons_self) (by simp [Fragment.isCards])
    | cards s =>
      refine ⟨?_, hnone⟩
      rw [List.flatMap_cons, ← htables]
      rfl

theorem introduced_of_not_isCards {fs : List Fragment} (h : ∀ x ∈ fs, x.isCards = false) :
    allIntroduced (printingConditions fs) = fs.flatMap Fragment.introduced ∧
      cardSelections fs = [] := by
  induction fs with
  | nil => exact ⟨rfl, rfl⟩
  | cons x fs ih =>
    obtain ⟨htables, hnone⟩ := ih fun y hy => h y (List.mem_cons_of_mem x hy)
    cases x with
    | cards s => exact absurd (h _ List.mem_cons_self) (by simp [Fragment.isCards])
    | printings e =>
      refine ⟨?_, hnone⟩
      rw [List.flatMap_cons, ← htables]
      rfl

/-- The categories of cards come before those of printings, so the order in which aliases
are taken is the order of the text. -/
theorem active_eq_append (f : Filters) : ∃ cards printings, f.active = cards ++ printings ∧
    (∀ c ∈ cards, c.isCardLevel = true) ∧ ∀ c ∈ printings, c.isCardLevel = false := by
  -- the list of all categories is in this order already
  have hall : Category.all = Category.all.filter Category.isCardLevel ++
      Category.all.filter fun c => !c.isCardLevel := by decide
  refine ⟨(Category.all.filter Category.isCardLevel).filter fun c => !(f.entries c).isEmpty,
    (Category.all.filter fun c => !c.isCardLevel).filter fun c => !(f.entries c).isEmpty,
    ?_, ?_, ?_⟩
  · rw [Filters.active, hall, List.filter_append, ← hall]
  · intro c hc
    exact (List.mem_filter.1 (List.mem_filter.1 hc).1).2
  · intro c hc
    simpa using (List.mem_filter.1 (List.mem_filter.1 hc).1).2

theorem isCards_of_mem_layout {ctx : Context} {f : Filters} {cs : List Category} {level : Bool}
    (h : ∀ c ∈ cs, c.isCardLevel = level) {n : Nat} {x : Fragment}
    (hx : x ∈ layout (fragmentsOf ctx f cs) n) : x.isCards = level := by
  obtain ⟨y, hy, m, -, rfl⟩ := mem_layout hx
  obtain ⟨c, hc, rfl⟩ := List.mem_map.1 hy
  rw [fragmentOf_isCards, h c hc]

/-- If the fragments of cards come first, the outer conditions introduce what the fragments
introduce, in turn. -/
theorem outerConditions_introduced {outer : String} {xs ys : List Fragment}
    (hxs : ∀ x ∈ xs, x.isCards = true) (hys : ∀ y ∈ ys, y.isCards = false) :
    allIntroduced (outerConditions outer (xs ++ ys)) = (xs ++ ys).flatMap Fragment.introduced := by
  obtain ⟨hxtables, hxnone⟩ := introduced_of_isCards hxs
  obtain ⟨hytables, hynone⟩ := introduced_of_not_isCards hys
  -- the first fragments give the selections only, the others the conditions only
  have hselections : cardSelections (xs ++ ys) = cardSelections xs := by
    rw [cardSelections, List.filterMap_append, ← cardSelections, ← cardSelections, hynone,
      List.append_nil]
  have hconditions : printingConditions (xs ++ ys) = printingConditions ys := by
    rw [printingConditions, List.filterMap_append, ← printingConditions, ← printingConditions,
      hxnone, List.nil_append]
  rw [outerConditions, hselections, hconditions, allIntroduced_append, hytables,
    List.flatMap_append, ← hxtables]
  congr 1
  cases hempty : (cardSelections xs).isEmpty with
  | true =>
    have hnil : cardSelections xs = [] := by simpa using hempty
    rw [hnil]
    rfl
  | false =>
    change (Query.intersect (cardSelections xs)).introduced ++ [] = _
    rw [List.append_nil]
    rfl

theorem activeFragments_introduced (blocks : Blocks) (f : Filters) (outer : String) :
    allIntroduced (outerConditions outer (activeFragments blocks f)) =
      (activeFragments blocks f).flatMap Fragment.introduced := by
  obtain ⟨cards, printings, hactive, hcards, hprintings⟩ := active_eq_append f
  have hlayout : activeFragments blocks f =
      layout (fragmentsOf ⟨aliasName 0, blocks⟩ f cards) 1 ++
        layout (fragmentsOf ⟨aliasName 0, blocks⟩ f printings)
          (1 + sizes (fragmentsOf ⟨aliasName 0, blocks⟩ f cards)) := by
    rw [activeFragments, hactive, fragmentsOf, List.map_append, layout_append]
    rfl
  rw [hlayout]
  exact outerConditions_introduced (fun x hx => isCards_of_mem_layout hcards hx)
    fun y hy => isCards_of_mem_layout hprintings hy

theorem mem_cardSelections {fs : List Fragment} {s : Select} :
    s ∈ cardSelections fs ↔ Fragment.cards s ∈ fs := by
  rw [cardSelections, List.mem_filterMap]
  constructor
  · rintro ⟨x, hx, h⟩
    cases x with
    | cards s' =>
      cases h
      exact hx
    | printings e => cases h
  · exact fun h => ⟨_, h, rfl⟩

theorem mem_printingConditions {fs : List Fragment} {e : Expr} :
    e ∈ printingConditions fs ↔ Fragment.printings e ∈ fs := by
  rw [printingConditions, List.mem_filterMap]
  constructor
  · rintro ⟨x, hx, h⟩
    cases x with
    | cards s => cases h
    | printings e' =>
      cases h
      exact hx
  · exact fun h => ⟨_, h, rfl⟩

/-- The outer conditions of fragments that can be read: one test of the card against all
selections of cards, if there are any, and the conditions on the printing. -/
theorem outerConditions_scoped {outer : String} {fs : List Fragment}
    (h : ∀ x ∈ fs, x.Scoped outer) :
    allScoped (outerSources outer) (outerConditions outer fs) := by
  rw [allScoped_iff]
  intro e he
  rcases List.mem_append.1 he with he | he
  · split at he
    · cases he
    · rename_i hne
      rw [List.mem_singleton.1 he]
      refine ⟨offer_of_mem printingTable List.mem_cons_self (by decide), by simpa using hne, ?_⟩
      rw [selectsScoped_iff]
      intro s hs
      exact h _ (mem_cardSelections.1 hs)
  · exact h _ (mem_printingConditions.1 he)

theorem activeFragments_scoped {catalog : Catalog} (blocks : Blocks) {f : Filters}
    (hfit : f.Fit catalog) : ∀ x ∈ activeFragments blocks f, x.Scoped (aliasName 0) := by
  intro x hx
  obtain ⟨y, hy, m, -, rfl⟩ := mem_layout hx
  obtain ⟨c, hc, rfl⟩ := List.mem_map.1 hy
  exact (fragmentOf_scoped ⟨aliasName 0, blocks⟩ (mem_active.1 hc)
    fun e he => fits_of_mem_entries hfit he).reads m

/-- The statement of filters that fit is scoped. -/
theorem statement_scoped {catalog : Catalog} (blocks : Blocks) {f : Filters}
    (hfit : f.Fit catalog) :
    (selectPrintings (aliasName 0)
      (outerConditions (aliasName 0) (activeFragments blocks f))).Scoped := by
  refine ⟨?_, by simp [printingIdentity], ?_, trivial,
    outerConditions_scoped (activeFragments_scoped blocks hfit), trivial⟩
  · intro p hp
    rw [List.mem_singleton.1 hp]
    exact isSource_alias (by decide) 0
  · intro c hc
    rw [List.append_nil] at hc
    obtain ⟨name, hname, rfl⟩ := List.mem_map.1 hc
    have hall : ∀ name ∈ printingIdentity, HasColumn printingTable name := by decide
    exact offer_of_mem _ List.mem_cons_self (hall name hname)

/-- The statement of filters that fit introduces its tables under the aliases of the
numbers from zero on. -/
theorem statement_introduced {catalog : Catalog} (blocks : Blocks) {f : Filters}
    (hfit : f.Fit catalog) :
    (selectPrintings (aliasName 0)
      (outerConditions (aliasName 0) (activeFragments blocks f))).introduced.map Prod.fst =
      (List.range (1 + sizes (fragmentsOf ⟨aliasName 0, blocks⟩ f f.active))).map aliasName := by
  have htakes : ∀ x ∈ fragmentsOf ⟨aliasName 0, blocks⟩ f f.active,
      x.Takes Fragment.introduced := by
    intro x hx
    obtain ⟨c, hc, rfl⟩ := List.mem_map.1 hx
    exact (fragmentOf_scoped ⟨aliasName 0, blocks⟩ (mem_active.1 hc)
      fun e he => fits_of_mem_entries hfit he).takes
  have htables : (selectPrintings (aliasName 0)
      (outerConditions (aliasName 0) (activeFragments blocks f))).introduced =
      (aliasName 0, printingTable) :: (activeFragments blocks f).flatMap Fragment.introduced := by
    rw [← activeFragments_introduced blocks f (aliasName 0)]
    simp only [selectPrintings, Select.introduced, joinsIntroduced, havingIntroduced,
      List.append_nil, List.singleton_append]
  rw [htables, List.map_cons, activeFragments, takes_layout htakes 1, List.range_eq_range',
    Nat.add_comm, List.range'_succ]
  rfl

end CardArchive
