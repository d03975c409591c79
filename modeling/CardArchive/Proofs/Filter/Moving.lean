import CardArchive.Proofs.Filter.Fragments
import CardArchive.Proofs.Statement.Renaming

/-!
# Fragments further on

A fragment that starts at a later number is the same fragment with its aliases renamed:
every alias but the outer one moves by the same distance. So the number at which a
fragment starts does not change what it says about a printing.

## What this module delivers

* `moved` and `moved_injective`: aliases further on.
* `Numbered.Moves` and `layout_moves`: parts that differ by moved aliases only.
* `fragmentOf_moves`: the fragment of each category.
-/

set_option autoImplicit false

namespace CardArchive

variable {α : Type}

/-! ## Moved aliases -/

/-- The number of an alias. -/
def numberOf (a : String) : Nat := Nat.ofDigitChars 10 (a.toList.drop 1) 0

@[simp]
theorem numberOf_aliasName (n : Nat) : numberOf (aliasName n) = n := by
  have hdigits : (aliasName n).toList.drop 1 = Nat.toDigits 10 n := by
    rw [aliasName, String.toList_append, Nat.toList_repr]
    rfl
  rw [numberOf, hdigits, Nat.ofDigitChars_ten_toDigits]

/-- The alias `k` numbers further on. The outer alias, of number zero, stays, and so does
what is no alias. -/
def moved (k : Nat) (a : String) : String :=
  if 1 ≤ numberOf a ∧ aliasName (numberOf a) = a then aliasName (numberOf a + k) else a

theorem moved_aliasName {n : Nat} (h : 1 ≤ n) (k : Nat) :
    moved k (aliasName n) = aliasName (n + k) := by
  simp [moved, h]

theorem moved_outer (k : Nat) : moved k (aliasName 0) = aliasName 0 := by
  simp [moved]

/-- Different aliases stay different. -/
theorem moved_injective (k : Nat) : Function.Injective (moved k) := by
  intro a b h
  unfold moved at h
  split at h
  · rename_i ha
    split at h
    · rename_i hb
      -- both are aliases of an own table
      have hnumbers : numberOf a = numberOf b := by
        have hsum := aliasName_injective h
        omega
      rw [← ha.2, ← hb.2, hnumbers]
    · rename_i hb
      refine absurd ⟨?_, ?_⟩ hb
      · rw [← h, numberOf_aliasName]
        omega
      · rw [← h, numberOf_aliasName]
  · rename_i ha
    split at h
    · rename_i hb
      refine absurd ⟨?_, ?_⟩ ha
      · rw [h, numberOf_aliasName]
        omega
      · rw [h, numberOf_aliasName]
    · exact h

/-- A column of an own alias, moved. -/
theorem column_moved {n : Nat} (h : 1 ≤ n) (k : Nat) (name : String) :
    Column.renamed (moved k) ⟨aliasName n, name⟩ = ⟨aliasName (n + k), name⟩ := by
  rw [Column.renamed, moved_aliasName h]

/-- A column of the outer printing stays. -/
theorem column_outer (k : Nat) (name : String) :
    Column.renamed (moved k) ⟨aliasName 0, name⟩ = ⟨aliasName 0, name⟩ := by
  rw [Column.renamed, moved_outer]

/-! ## Parts further on -/

/-- A part that starts further on is the same part with moved aliases. -/
def Numbered.Moves (rename : (String → String) → α → α) (x : Numbered α) : Prop :=
  ∀ n k, 1 ≤ n → x.build (n + k) = rename (moved k) (x.build n)

theorem layout_moves {rename : (String → String) → α → α} {xs : List (Numbered α)}
    (h : ∀ x ∈ xs, x.Moves rename) {n : Nat} (hn : 1 ≤ n) (k : Nat) :
    layout xs (n + k) = (layout xs n).map (rename (moved k)) := by
  induction xs generalizing n with
  | nil => rfl
  | cons x xs ih =>
    -- the rest starts further on by the same distance
    have hnext : n + k + x.size = n + x.size + k := by omega
    rw [layout_cons, layout_cons, List.map_cons, h x List.mem_cons_self n k hn, hnext,
      ih (fun y hy => h y (List.mem_cons_of_mem x hy)) (by omega)]

/-! ## Nested selections -/

/-- A nested selection under other aliases. -/
def nestedRenamed (ρ : String → String) (s : Select × Bool) : Select × Bool :=
  (s.1.renamed ρ, s.2)

theorem inTexts_renamed (ρ : String → String) (c : Column) (values : List String)
    (negated : Bool) :
    (inTexts c values negated).renamed ρ = inTexts (c.renamed ρ) values negated := rfl

theorem selectColumn_renamed (ρ : String → String) (c : Column) (table : String)
    (joins : List Join) (conditions : List Expr) :
    (selectColumn c table joins conditions).renamed ρ =
      selectColumn (c.renamed ρ) table (joins.map (Join.renamed ρ))
        (conditions.map (Expr.renamed ρ)) := by
  rw [selectColumn, Select.renamed, joinsRenamed_eq_map, allRenamed_eq_map]
  rfl

theorem selectCovering_renamed (ρ : String → String) (key : Column) (table : String)
    (joins : List Join) (c : Column) (values : List String) :
    (selectCovering key table joins c values).renamed ρ =
      selectCovering (key.renamed ρ) table (joins.map (Join.renamed ρ)) (c.renamed ρ) values := by
  rw [selectCovering, Select.renamed, joinsRenamed_eq_map]
  rfl

theorem blockJoin_renamed (ρ : String → String) (printing block : String) :
    (blockJoin printing block).renamed ρ = blockJoin (ρ printing) (ρ block) := rfl

theorem coveringNested_moves (table column : String) (values : List String) :
    (coveringNested table column values).Moves nestedRenamed := by
  intro n k hn
  simp only [coveringNested, nestedRenamed, selectCovering_renamed, column_moved hn, List.map_nil]

theorem memberNested_moves (table column : String) (values : List String) (negated : Bool) :
    (memberNested table column values negated).Moves nestedRenamed := by
  intro n k hn
  simp only [memberNested, nestedRenamed, selectColumn_renamed, column_moved hn, List.map_nil,
    List.map_cons, inTexts_renamed]

theorem blockCoveringNested_moves (blocks : List String) :
    (blockCoveringNested blocks).Moves nestedRenamed := by
  intro n k hn
  have hnext : 1 ≤ n + 1 := by omega
  simp only [blockCoveringNested, nestedRenamed, selectCovering_renamed, column_moved hn,
    column_moved hnext, List.map_nil, List.map_cons, blockJoin_renamed, moved_aliasName hn,
    moved_aliasName hnext, Nat.add_right_comm n 1 k]

theorem blockMemberNested_moves (blocks : List String) :
    (blockMemberNested blocks).Moves nestedRenamed := by
  intro n k hn
  have hnext : 1 ≤ n + 1 := by omega
  simp only [blockMemberNested, nestedRenamed, selectColumn_renamed, column_moved hn,
    column_moved hnext, List.map_nil, List.map_cons, blockJoin_renamed, inTexts_renamed,
    moved_aliasName hn, moved_aliasName hnext, Nat.add_right_comm n 1 k]

theorem sideNested_moves (c : Category) (p : Partition) :
    ∀ x ∈ sideNested c p, x.Moves nestedRenamed := by
  intro x hx
  simp only [sideNested, List.mem_append, mem_given] at hx
  rcases hx with (⟨-, rfl⟩ | ⟨-, rfl⟩) | ⟨-, rfl⟩
  · exact coveringNested_moves _ _ _
  · exact memberNested_moves _ _ _ _
  · exact memberNested_moves _ _ _ _

theorem printingNested_moves (c : Category) (p : Partition) :
    ∀ x ∈ printingNested c p, x.Moves nestedRenamed := by
  intro x hx
  simp only [printingNested, List.mem_append, mem_given] at hx
  rcases hx with ⟨-, rfl⟩ | ⟨-, rfl⟩
  · exact coveringNested_moves _ _ _
  · exact memberNested_moves _ _ _ _

theorem blockNested_moves (p : Partition) : ∀ x ∈ blockNested p, x.Moves nestedRenamed := by
  intro x hx
  simp only [blockNested, List.mem_append, mem_given] at hx
  rcases hx with ⟨-, rfl⟩ | ⟨-, rfl⟩
  · exact blockCoveringNested_moves _
  · exact blockMemberNested_moves _

/-- Tests of the card further on. -/
theorem nestedTests_moved {xs : List (Numbered (Select × Bool))}
    (h : ∀ x ∈ xs, x.Moves nestedRenamed) (key : Column) {n : Nat} (hn : 1 ≤ n) (k : Nat) :
    (layout xs (n + k)).map (cardTest (key.renamed (moved k))) =
      ((layout xs n).map (cardTest key)).map (Expr.renamed (moved k)) := by
  rw [layout_moves h hn, List.map_map, List.map_map]
  rfl

/-! ## Fragments of words and values -/

/-- A fragment under other aliases. -/
def Fragment.renamed (ρ : String → String) : Fragment → Fragment
  | .cards s => .cards (s.renamed ρ)
  | .printings e => .printings (e.renamed ρ)

theorem wordCondition_renamed (ρ : String → String) (c : Column) (m : Mode)
    (words : List String) :
    (wordCondition c m words).renamed ρ = wordCondition (c.renamed ρ) m words := by
  cases m with
  | mustInclude =>
    rw [wordCondition, Expr.renamed, allRenamed_eq_map, List.map_map]
    rfl
  | disallow =>
    rw [wordCondition, Expr.renamed, allRenamed_eq_map, List.map_map]
    rfl
  | oneOf =>
    rw [wordCondition, Expr.renamed, allRenamed_eq_map, List.map_map]
    rfl

theorem wordConditions_renamed (ρ : String → String) (p : Partition) (c : Column) :
    (p.wordConditions c).map (Expr.renamed ρ) = p.wordConditions (c.renamed ρ) := by
  rw [Partition.wordConditions, Partition.wordConditions, List.map_filterMap]
  apply List.filterMap_congr
  intro m _
  split
  · rfl
  · rw [Option.map_some, wordCondition_renamed]

theorem wordsFragment_moves (c : Category) (p : Partition) :
    (wordsFragment c p).Moves Fragment.renamed := by
  intro n k hn
  simp only [wordsFragment, Fragment.renamed, selectColumn_renamed, column_moved hn,
    List.map_nil, wordConditions_renamed]

theorem sideOwn_renamed (ρ : String → String) (p : Partition) (value : Column) :
    (sideOwn p value).map (Expr.renamed ρ) = sideOwn p (value.renamed ρ) := by
  unfold sideOwn
  rw [List.map_append]
  congr 1
  · split
    · rfl
    · rfl
  · split
    · rfl
    · rfl

theorem sideFragment_moves (c : Category) (p : Partition) :
    (sideFragment c p).Moves Fragment.renamed := by
  intro n k hn
  have hnext : n + k + 1 = n + 1 + k := by omega
  -- the tests of the card name the own table, which moves with them
  have hkey : sideKey p (aliasName (n + k)) = (sideKey p (aliasName n)).renamed (moved k) :=
    (column_moved hn k _).symm
  simp only [sideFragment, Fragment.renamed, selectColumn_renamed, List.map_nil, List.map_append,
    sideOwn_renamed, column_moved hn, hkey, hnext]
  rw [nestedTests_moved (sideNested_moves c p) _ (by omega)]

theorem ownTests_renamed (ρ : String → String) (c : Column)
    (forbidden included : Option (List String)) :
    (ownTests c forbidden included).map (Expr.renamed ρ) =
      ownTests (c.renamed ρ) forbidden included := by
  unfold ownTests
  rw [List.map_append]
  congr 1
  · cases forbidden with
    | none => rfl
    | some vs => rfl
  · cases included with
    | none => rfl
    | some vs => rfl

/-- A condition on the outer printing, with tests of its card, moves its own aliases
only. -/
theorem ownAndNested_moves (value : String) (forbidden included : Option (List String))
    {xs : List (Numbered (Select × Bool))} (hxs : ∀ x ∈ xs, x.Moves nestedRenamed) :
    Numbered.Moves Fragment.renamed ⟨sizes xs, fun n => .printings (.allOf
      (ownTests ⟨aliasName 0, value⟩ forbidden included ++
        (layout xs n).map (cardTest ⟨aliasName 0, "card_name"⟩)))⟩ := by
  intro n k hn
  -- the outer alias has number zero and stays
  have hnested := nestedTests_moved hxs ⟨aliasName 0, "card_name"⟩ hn k
  rw [column_outer] at hnested
  simp only [Fragment.renamed, Expr.renamed, allRenamed_eq_map, List.map_append,
    ownTests_renamed, column_outer, hnested]

theorem flavorFragment_moves (p : Partition) :
    (flavorFragment (aliasName 0) p).Moves Fragment.renamed := by
  intro n k hn
  simp only [flavorFragment, Fragment.renamed, Expr.renamed, allRenamed_eq_map,
    wordConditions_renamed, column_outer]

/-! ## Fragments of comparisons -/

/-- A source under another alias. -/
def Source.renamed (ρ : String → String) (s : Source) : Source := ⟨s.table, ρ s.source, s.key⟩

/-- Sources and a condition under other aliases. -/
def partRenamed (ρ : String → String) (p : List Source × Expr) : List Source × Expr :=
  (p.1.map (Source.renamed ρ), p.2.renamed ρ)

theorem statSource_moved (s : Stat) {n : Nat} (hn : 1 ≤ n) (k : Nat) :
    (statSource s n).renamed (moved k) = statSource s (n + k) := by
  rw [Source.renamed, statSource, moved_aliasName hn, statSource]

theorem statPart_moves (x : StatTest) : x.part.Moves partRenamed := by
  intro n k hn
  simp only [StatTest.part, partRenamed, List.map_cons, List.map_nil, statSource_moved _ hn,
    Expr.renamed, statValue, column_moved hn]

theorem versusPart_moves (x : VersusTest) : x.part.Moves partRenamed := by
  intro n k hn
  have hnext : 1 ≤ n + 1 := by omega
  simp only [VersusTest.part, partRenamed, List.map_cons, List.map_nil, statSource_moved _ hn,
    statSource_moved _ hnext, Expr.renamed, statValue, column_moved hn, column_moved hnext,
    Nat.add_right_comm n 1 k]

/-- What is selected from no source at all holds for any aliases, as long as no alias is
the empty one. -/
theorem selectNumbers_renamed {ρ : String → String} (hempty : ρ "" = "") (sources : List Source)
    (conditions : List Expr) :
    (selectNumbers sources conditions).renamed ρ =
      selectNumbers (sources.map (Source.renamed ρ)) (conditions.map (Expr.renamed ρ)) := by
  cases sources with
  | nil =>
    rw [selectNumbers, Select.renamed, allRenamed_eq_map, hempty]
    rfl
  | cons base rest =>
    rw [selectNumbers, selectColumn_renamed, List.map_map, List.map_cons, selectNumbers,
      List.map_map]
    rfl

theorem numbersFragment_moves {parts : List (Numbered (List Source × Expr))}
    (h : ∀ x ∈ parts, x.Moves partRenamed) : (numbersFragment parts).Moves Fragment.renamed := by
  intro n k hn
  have hempty : moved k "" = "" := rfl
  simp only [numbersFragment, Fragment.renamed, selectNumbers_renamed hempty, layout_moves h hn,
    List.map_map, List.flatMap_map, List.map_flatMap]
  rfl

/-- A join and a condition under other aliases. -/
def manaRenamed (ρ : String → String) (p : Join × Expr) : Join × Expr :=
  (p.1.renamed ρ, p.2.renamed ρ)

theorem manaPart_moves {m : Nat} (hm : 1 ≤ m) (x : ManaTest) {n : Nat} (hn : 1 ≤ n) (k : Nat) :
    (x.part (aliasName (m + k))).build (n + k) =
      manaRenamed (moved k) ((x.part (aliasName m)).build n) := by
  simp only [ManaTest.part, manaRenamed, Join.renamed, Expr.renamed, allRenamed,
    column_moved hm, column_moved hn, moved_aliasName hn]

theorem manaLayout_moves {m : Nat} (hm : 1 ≤ m) (xs : List ManaTest) {n : Nat} (hn : 1 ≤ n)
    (k : Nat) :
    layout (xs.map (ManaTest.part (aliasName (m + k)))) (n + k) =
      (layout (xs.map (ManaTest.part (aliasName m))) n).map (manaRenamed (moved k)) := by
  induction xs generalizing n with
  | nil => rfl
  | cons x xs ih =>
    -- the alias of the cards stays at `m` while the amounts move on from `n`
    have hrest := ih (n := n + 1) (by omega)
    rw [Nat.add_right_comm] at hrest
    rw [List.map_cons, layout_cons, List.map_cons, layout_cons, List.map_cons,
      manaPart_moves hm x hn]
    exact congrArg _ hrest

theorem manaFragment_moves (xs : List ManaTest) : (manaFragment xs).Moves Fragment.renamed := by
  intro n k hn
  have hlayout := manaLayout_moves hn xs (n := n + 1) (by omega) k
  rw [Nat.add_right_comm] at hlayout
  simp only [manaFragment, Fragment.renamed, selectColumn_renamed, column_moved hn, hlayout,
    List.map_map]
  rfl

/-! ## All fragments -/

/-- The fragment of a category that starts further on is the same fragment with moved
aliases. -/
theorem fragmentOf_moves (blocks : Blocks) (c : Category) (es : List Entry) :
    (fragmentOf ⟨aliasName 0, blocks⟩ c es).Moves Fragment.renamed := by
  cases c with
  | name => exact wordsFragment_moves _ _
  | text => exact wordsFragment_moves _ _
  | color => exact sideFragment_moves _ _
  | colorIdentity => exact sideFragment_moves _ _
  | supertype => exact sideFragment_moves _ _
  | type => exact sideFragment_moves _ _
  | subtype => exact sideFragment_moves _ _
  | stat =>
    apply numbersFragment_moves
    intro x hx
    obtain ⟨t, -, rfl⟩ := List.mem_map.1 hx
    exact statPart_moves t
  | statVersusStat =>
    apply numbersFragment_moves
    intro x hx
    obtain ⟨t, -, rfl⟩ := List.mem_map.1 hx
    exact versusPart_moves t
  | manaType => exact manaFragment_moves _
  | set => exact ownAndNested_moves _ _ _ (printingNested_moves _ _)
  | block => exact ownAndNested_moves _ _ _ (blockNested_moves _)
  | artist => exact ownAndNested_moves _ _ _ (printingNested_moves _ _)
  | rarity => exact ownAndNested_moves _ _ _ (printingNested_moves _ _)
  | flavorText => exact flavorFragment_moves _

end CardArchive
