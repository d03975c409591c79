import CardArchive.Filter.Compose
import CardArchive.Proofs.Filter.Numbered
import CardArchive.Proofs.Search.Requests

/-!
# Fragments by their first alias number

Each compiler of a category is a computation that takes alias numbers. For filters
that the category can hold it never fails, and what it builds is written here as a
function of the filters and of the first number alone. The statement of a search is
then the outer selection under the alias of number zero with the fragments of its
active categories in turn, from number one on.

## What this module delivers

* `split` and `partition_of_isValue`: the values by mode.
* `fragmentOf`: the fragment of a category, of filters that fit.
* `compileCategory_yields`: the compiler of each category builds that fragment.
* `statement_eq`: the statement of filters that fit.
-/

set_option autoImplicit false

namespace CardArchive

open CardArchive.Numbering

/-! ## Values by mode -/

/-- The values of some filters by mode, each once. -/
def split (es : List Entry) : Partition :=
  ⟨(valuesOf .mustInclude es).eraseDups, (valuesOf .disallow es).eraseDups,
   (valuesOf .oneOf es).eraseDups⟩

/-- A value that was entered stands under its mode. -/
theorem mem_valuesOf {es : List Entry} {v : String} {m : Mode} :
    v ∈ valuesOf m es ↔ Entry.value v m ∈ es := by
  induction es with
  | nil => simp
  | cons e es ih =>
    cases e with
    | comparison l o r => simp [valuesOf, ih]
    | value w n =>
      by_cases h : n = m
      · simp [valuesOf, h, ih]
      · have hne : m ≠ n := fun hm => h hm.symm
        simp [valuesOf, h, hne, ih]

theorem byMode_split (es : List Entry) (m : Mode) :
    (split es).byMode m = (valuesOf m es).eraseDups := by
  cases m with
  | mustInclude => rfl
  | disallow => rfl
  | oneOf => rfl

theorem mem_byMode_split {es : List Entry} {m : Mode} {v : String} :
    v ∈ (split es).byMode m ↔ Entry.value v m ∈ es := by
  rw [byMode_split, List.mem_eraseDups, mem_valuesOf]

/-- Filters of values leave some mode with a value. -/
theorem exists_mem_byMode {es : List Entry} (hne : es ≠ []) (hv : ∀ e ∈ es, e.isValue = true) :
    ∃ m v, v ∈ (split es).byMode m := by
  obtain ⟨e, rest, rfl⟩ := List.exists_cons_of_ne_nil hne
  cases e with
  | value v m => exact ⟨m, v, mem_byMode_split.2 List.mem_cons_self⟩
  | comparison l o r => cases hv _ List.mem_cons_self

/-- Filters of values are split without a failure. -/
theorem partition_of_isValue {es : List Entry} (hne : es ≠ [])
    (hv : ∀ e ∈ es, e.isValue = true) : partition es = .ok (split es) := by
  have hall : (es.any fun e => !e.isValue) = false := by
    rw [List.any_eq_false]
    intro e he
    simp [hv e he]
  -- some value is there, so the check for none does not fail
  have hfull : (split es).isEmpty = false := by
    obtain ⟨m, v, hmem⟩ := exists_mem_byMode hne hv
    have hmode : (split es).byMode m ≠ [] := List.ne_nil_of_mem hmem
    cases m <;> simp_all [Partition.isEmpty, Partition.byMode]
  unfold partition
  rw [hall]
  simp only [Bool.false_eq_true, if_false]
  rw [show (Partition.mk _ _ _).isEmpty = false from hfull]
  rfl

/-! ## Tests of cards by nested selections -/

/-- The test of a card by a nested selection, or by its negation. -/
def cardTest (key : Column) (nested : Select × Bool) : Expr :=
  .inQuery key (.select nested.1) nested.2

/-- Cards with a row for every one of the values. -/
def coveringNested (table column : String) (values : List String) : Numbered (Select × Bool) :=
  ⟨1, fun n => (selectCovering ⟨aliasName n, "card_name"⟩ table [] ⟨aliasName n, column⟩ values,
    false)⟩

/-- Cards with, or without, a row for one of the values. -/
def memberNested (table column : String) (values : List String) (negated : Bool) :
    Numbered (Select × Bool) :=
  ⟨1, fun n => (selectColumn ⟨aliasName n, "card_name"⟩ table []
    [inTexts ⟨aliasName n, column⟩ values false], negated)⟩

/-- Cards with a printing in every one of the blocks. -/
def blockCoveringNested (blocks : List String) : Numbered (Select × Bool) :=
  ⟨2, fun n => (selectCovering ⟨aliasName n, "card_name"⟩ printingTable
    [blockJoin (aliasName n) (aliasName (n + 1))] ⟨aliasName (n + 1), "block"⟩ blocks, false)⟩

/-- Cards with a printing in one of the blocks. -/
def blockMemberNested (blocks : List String) : Numbered (Select × Bool) :=
  ⟨2, fun n => (selectColumn ⟨aliasName n, "card_name"⟩ printingTable
    [blockJoin (aliasName n) (aliasName (n + 1))]
    [inTexts ⟨aliasName (n + 1), "block"⟩ blocks false], false)⟩

theorem sideCovering_builds (table column : String) (values : List String) (key : Column) :
    Builds (do
      let s ← sideCovering table column values
      pure (.inQuery key (.select s) false))
      ((coveringNested table column values).map (cardTest key)) :=
  fun n => yields_bind (yields_bind (yields_newAlias n) (yields_pure _ _)) (yields_pure _ _)

theorem sideMembers_builds (table column : String) (values : List String) (key : Column)
    (negated : Bool) :
    Builds (do
      let s ← sideMembers table column values
      pure (.inQuery key (.select s) negated))
      ((memberNested table column values negated).map (cardTest key)) :=
  fun n => yields_bind (yields_bind (yields_newAlias n) (yields_pure _ _)) (yields_pure _ _)

theorem blockCovering_builds (blocks : List String) (key : Column) :
    Builds (do
      let s ← blockCovering blocks
      pure (.inQuery key (.select s) false))
      ((blockCoveringNested blocks).map (cardTest key)) :=
  fun n => yields_bind (yields_bind (yields_newAlias n)
    (yields_bind (yields_newAlias (n + 1)) (yields_pure _ _))) (yields_pure _ _)

theorem blockMembers_builds (blocks : List String) (key : Column) :
    Builds (do
      let s ← blockMembers blocks
      pure (.inQuery key (.select s) false))
      ((blockMemberNested blocks).map (cardTest key)) :=
  fun n => yields_bind (yields_bind (yields_newAlias n)
    (yields_bind (yields_newAlias (n + 1)) (yields_pure _ _))) (yields_pure _ _)

/-- A needed nested test is laid out, and one that is not needed takes no number. -/
theorem yields_nested {needed : Bool} {m : Numbering Expr} {key : Column}
    {x : Numbered (Select × Bool)} (hm : m.Builds (x.map (cardTest key))) (n : Nat) :
    (onlyIf needed m).Yields n ((layout (given needed x) n).map (cardTest key))
      (n + sizes (given needed x)) := by
  have h := yields_onlyIf needed hm n
  rw [given_map, layout_map, sizes_map] at h
  exact h

/-! ## Fragments of words and values -/

/-- The fragment of the words of a card category. -/
def wordsFragment (c : Category) (p : Partition) : Numbered Fragment :=
  ⟨1, fun n => .cards (selectColumn ⟨aliasName n, "name"⟩ "Card" []
    (p.wordConditions ⟨aliasName n, c.wordColumn⟩))⟩

/-- The nested selections of a category with several values for a card. -/
def sideNested (c : Category) (p : Partition) : List (Numbered (Select × Bool)) :=
  given (!p.must.isEmpty) (coveringNested c.sideTable.1 c.sideTable.2 p.must) ++
    given (!p.must.isEmpty && !p.oneOf.isEmpty)
      (memberNested c.sideTable.1 c.sideTable.2 p.oneOf false) ++
    given (!p.disallow.isEmpty) (memberNested c.sideTable.1 c.sideTable.2 p.disallow true)

/-- The column that names the card: that of the category's own table if a value is asked
for, that of the cards if values are only forbidden. -/
def sideKey (p : Partition) (source : String) : Column :=
  ⟨source, if !p.included.isEmpty then "card_name" else "name"⟩

/-- The tests of the row's own value. -/
def sideOwn (p : Partition) (value : Column) : List Expr :=
  (if !p.included.isEmpty && !p.disallow.isEmpty then [inTexts value p.disallow true] else []) ++
    (if !p.included.isEmpty then [inTexts value p.included false] else [])

/-- The fragment of a category with several values for a card. -/
def sideFragment (c : Category) (p : Partition) : Numbered Fragment :=
  ⟨1 + sizes (sideNested c p), fun n =>
    .cards (selectColumn (sideKey p (aliasName n))
      (if !p.included.isEmpty then c.sideTable.1 else "Card") []
      (sideOwn p ⟨aliasName n, c.sideTable.2⟩ ++
        (layout (sideNested c p) (n + 1)).map (cardTest (sideKey p (aliasName n)))))⟩

/-- The nested selections of a category with one value for a printing. -/
def printingNested (c : Category) (p : Partition) : List (Numbered (Select × Bool)) :=
  given p.spansPrintings (coveringNested printingTable c.printingColumn p.must) ++
    given (!p.must.isEmpty && !p.oneOf.isEmpty)
      (memberNested printingTable c.printingColumn p.oneOf false)

/-- The fragment of a category with one value for a printing. -/
def printingFragment (outer : String) (c : Category) (p : Partition) : Numbered Fragment :=
  ⟨sizes (printingNested c p), fun n =>
    .printings (.allOf
      (ownTests ⟨outer, c.printingColumn⟩ (nonempty? p.disallow) (nonempty? p.included) ++
        (layout (printingNested c p) n).map (cardTest ⟨outer, "card_name"⟩)))⟩

/-- The fragment of the words of a printing. -/
def flavorFragment (outer : String) (p : Partition) : Numbered Fragment :=
  ⟨0, fun _ => .printings (.allOf (p.wordConditions ⟨outer, "flavor_text"⟩))⟩

/-- The nested selections of the blocks. -/
def blockNested (p : Partition) : List (Numbered (Select × Bool)) :=
  given p.spansPrintings (blockCoveringNested p.must) ++
    given (!p.must.isEmpty && !p.oneOf.isEmpty) (blockMemberNested p.oneOf)

/-- The fragment of the blocks. -/
def blockFragment (ctx : Context) (p : Partition) : Numbered Fragment :=
  ⟨sizes (blockNested p), fun n =>
    .printings (.allOf
      (ownTests ⟨ctx.outer, "expansion"⟩ ((nonempty? p.disallow).map ctx.blocks.setsOfAll)
          ((nonempty? p.included).map ctx.blocks.setsOfAll) ++
        (layout (blockNested p) n).map (cardTest ⟨ctx.outer, "card_name"⟩)))⟩

section

variable {es : List Entry} (hne : es ≠ []) (hv : ∀ e ∈ es, e.isValue = true)
include hne hv

theorem split_yields (n : Nat) :
    Yields (Numbering.ofExcept ((partition es).mapError Failure.statement)) n (split es) n := by
  apply yields_ofExcept
  rw [mapError_eq_ok]
  exact partition_of_isValue hne hv

theorem compileWords_yields (c : Category) (n : Nat) :
    (compileWords c es).Yields n ((wordsFragment c (split es)).build n)
      (n + (wordsFragment c (split es)).size) :=
  yields_bind (split_yields hne hv n) (yields_bind (yields_newAlias n) (yields_pure _ _))

theorem compileSide_yields (c : Category) (n : Nat) :
    (compileSide c es).Yields n ((sideFragment c (split es)).build n)
      (n + (sideFragment c (split es)).size) := by
  have hnested : (sideFragment c (split es)).build n = .cards (selectColumn
      (sideKey (split es) (aliasName n))
      (if !(split es).included.isEmpty then c.sideTable.1 else "Card") []
      (sideOwn (split es) ⟨aliasName n, c.sideTable.2⟩ ++
        (layout (sideNested c (split es)) (n + 1)).map
          (cardTest (sideKey (split es) (aliasName n))))) := rfl
  have hsize : (sideFragment c (split es)).size = 1 + sizes (sideNested c (split es)) := rfl
  rw [hnested, hsize]
  -- one step for each test, in the order in which the compiler takes the numbers
  simp only [sideNested, layout_append, List.map_append, sizes_append, ← Nat.add_assoc,
    ← List.append_assoc]
  refine yields_bind (split_yields hne hv n) ?_
  refine yields_bind (yields_newAlias n) ?_
  refine yields_bind (yields_nested (sideCovering_builds _ _ _ _) (n + 1)) ?_
  refine yields_bind (yields_nested (sideMembers_builds _ _ _ _ _) _) ?_
  refine yields_bind (yields_nested (sideMembers_builds _ _ _ _ _) _) ?_
  exact yields_pure _ _

theorem compilePrinting_yields (ctx : Context) {c : Category} (hc : c ≠ .flavorText) (n : Nat) :
    (compilePrinting ctx c es).Yields n ((printingFragment ctx.outer c (split es)).build n)
      (n + (printingFragment ctx.outer c (split es)).size) := by
  unfold compilePrinting printingFragment
  simp only [printingNested, layout_append, List.map_append, sizes_append, ← Nat.add_assoc,
    ← List.append_assoc, if_neg hc]
  refine yields_bind (split_yields hne hv n) ?_
  refine yields_bind (yields_nested (sideCovering_builds printingTable _ _ _) n) ?_
  refine yields_bind (yields_nested (sideMembers_builds printingTable _ _ _ _) _) ?_
  exact yields_pure _ _

theorem compileFlavor_yields (ctx : Context) (n : Nat) :
    (compilePrinting ctx .flavorText es).Yields n
      ((flavorFragment ctx.outer (split es)).build n)
      (n + (flavorFragment ctx.outer (split es)).size) :=
  yields_bind (split_yields hne hv n) (yields_pure _ _)

theorem compileBlock_yields (ctx : Context) (n : Nat) :
    (compileBlock ctx es).Yields n ((blockFragment ctx (split es)).build n)
      (n + (blockFragment ctx (split es)).size) := by
  unfold compileBlock blockFragment
  simp only [blockNested, layout_append, List.map_append, sizes_append, ← Nat.add_assoc,
    ← List.append_assoc]
  refine yields_bind (split_yields hne hv n) ?_
  refine yields_bind (yields_nested (blockCovering_builds _ _) n) ?_
  refine yields_bind (yields_nested (blockMembers_builds _ _) _) ?_
  exact yields_pure _ _

end

/-! ## Fragments of comparisons -/

/-- The source of a statistic under the alias with a given number. -/
def statSource (s : Stat) (n : Nat) : Source := ⟨s.place.1, aliasName n, s.place.2.2⟩

/-- The value column of a statistic under the alias with a given number. -/
def statValue (s : Stat) (n : Nat) : Column := ⟨aliasName n, s.place.2.1⟩

/-- Source and condition of a comparison with an integer. -/
def StatTest.part (x : StatTest) : Numbered (List Source × Expr) :=
  ⟨1, fun n => ([statSource x.stat n],
    .compare (.column (statValue x.stat n)) x.operator.text (.literal (.integer x.value)))⟩

/-- Sources and condition of a comparison of two statistics. -/
def VersusTest.part (x : VersusTest) : Numbered (List Source × Expr) :=
  ⟨2, fun n => ([statSource x.left n, statSource x.right (n + 1)],
    .compare (.column (statValue x.left n)) x.operator.text
      (.column (statValue x.right (n + 1))))⟩

/-- The fragment of comparisons of statistics. -/
def numbersFragment (parts : List (Numbered (List Source × Expr))) : Numbered Fragment :=
  ⟨sizes parts, fun n =>
    .cards (selectNumbers ((layout parts n).flatMap Prod.fst) ((layout parts n).map Prod.snd))⟩

/-- Join and condition of a comparison of an amount of mana, for the cards under an
alias. -/
def ManaTest.part (card : String) (x : ManaTest) : Numbered (Join × Expr) :=
  ⟨1, fun n =>
    (.mk "Mana" (aliasName n) (.allOf [
        .compare (.column ⟨card, "name"⟩) Operator.equal.text
          (.column ⟨aliasName n, "card_name"⟩),
        .compare (.column ⟨aliasName n, "mana_type"⟩) Operator.equal.text
          (.literal (.text x.symbol))]) true,
      .compare (.coalesce (.column ⟨aliasName n, "quantity"⟩) (.literal (.integer 0)))
        x.operator.text (.literal (.integer x.quantity)))⟩

/-- The fragment of comparisons of amounts of mana. -/
def manaFragment (xs : List ManaTest) : Numbered Fragment :=
  ⟨1 + xs.length, fun n =>
    .cards (selectColumn ⟨aliasName n, "name"⟩ "Card"
      ((layout (xs.map (ManaTest.part (aliasName n))) (n + 1)).map Prod.fst)
      ((layout (xs.map (ManaTest.part (aliasName n))) (n + 1)).map Prod.snd))⟩

theorem newSource_yields (s : Stat) (n : Nat) :
    (newSource s).Yields n (statSource s n, statValue s n) (n + 1) :=
  yields_bind (yields_newAlias n) (yields_pure _ _)

theorem statParts_yields (xs : List StatTest) (n : Nat) :
    (statParts (xs.map StatTest.entry)).Yields n
      ((layout (xs.map StatTest.part) n).flatMap Prod.fst,
        (layout (xs.map StatTest.part) n).map Prod.snd)
      (n + sizes (xs.map StatTest.part)) := by
  induction xs generalizing n with
  | nil => exact yields_pure _ n
  | cons x xs ih =>
    simp only [List.map_cons, layout_cons, sizes_cons, List.flatMap_cons, ← Nat.add_assoc]
    refine yields_bind (yields_ofExcept rfl n) ?_
    refine yields_bind (newSource_yields x.stat n) ?_
    refine yields_bind (ih (n + 1)) ?_
    exact yields_pure _ _

theorem versusParts_yields (xs : List VersusTest) (n : Nat) :
    (versusParts (xs.map VersusTest.entry)).Yields n
      ((layout (xs.map VersusTest.part) n).flatMap Prod.fst,
        (layout (xs.map VersusTest.part) n).map Prod.snd)
      (n + sizes (xs.map VersusTest.part)) := by
  induction xs generalizing n with
  | nil => exact yields_pure _ n
  | cons x xs ih =>
    simp only [List.map_cons, layout_cons, sizes_cons, List.flatMap_cons, ← Nat.add_assoc]
    refine yields_bind (yields_ofExcept rfl n) ?_
    refine yields_bind (yields_ofExcept rfl n) ?_
    refine yields_bind (newSource_yields x.left n) ?_
    refine yields_bind (newSource_yields x.right (n + 1)) ?_
    refine yields_bind (ih (n + 2)) ?_
    exact yields_pure _ _

theorem manaParts_yields (card : String) (xs : List ManaTest) (n : Nat) :
    (manaParts card (xs.map ManaTest.entry)).Yields n
      ((layout (xs.map (ManaTest.part card)) n).map Prod.fst,
        (layout (xs.map (ManaTest.part card)) n).map Prod.snd)
      (n + xs.length) := by
  induction xs generalizing n with
  | nil => exact yields_pure _ n
  | cons x xs ih =>
    have hcount : n + (xs.length + 1) = n + 1 + xs.length := by omega
    simp only [List.map_cons, layout_cons, List.length_cons, hcount]
    refine yields_bind (yields_newAlias n) ?_
    refine yields_bind (ih (n + 1)) ?_
    exact yields_pure _ _

/-- Comparisons are no values, so none of them is refused. -/
theorem checkComparisons_yields {α : Type} {entry : α → Entry}
    (h : ∀ x, (entry x).isValue = false) (xs : List α) (n : Nat) :
    (checkComparisons (xs.map entry)).Yields n () n := by
  have hnone : (xs.map entry).any Entry.isValue = false := by
    rw [List.any_eq_false]
    intro e he
    obtain ⟨x, -, rfl⟩ := List.mem_map.1 he
    simp [h x]
  unfold checkComparisons
  rw [hnone]
  exact yields_pure () n

theorem compileStat_yields (xs : List StatTest) (n : Nat) :
    (compileStat (xs.map StatTest.entry)).Yields n
      ((numbersFragment (xs.map StatTest.part)).build n)
      (n + (numbersFragment (xs.map StatTest.part)).size) := by
  refine yields_bind (checkComparisons_yields (fun _ => rfl) xs n) ?_
  refine yields_bind (statParts_yields xs n) ?_
  exact yields_pure _ _

theorem compileVersus_yields (xs : List VersusTest) (n : Nat) :
    (compileVersus (xs.map VersusTest.entry)).Yields n
      ((numbersFragment (xs.map VersusTest.part)).build n)
      (n + (numbersFragment (xs.map VersusTest.part)).size) := by
  refine yields_bind (checkComparisons_yields (fun _ => rfl) xs n) ?_
  refine yields_bind (versusParts_yields xs n) ?_
  exact yields_pure _ _

theorem compileMana_yields (xs : List ManaTest) (n : Nat) :
    (compileMana (xs.map ManaTest.entry)).Yields n ((manaFragment xs).build n)
      (n + (manaFragment xs).size) := by
  have hcount : n + (manaFragment xs).size = n + 1 + xs.length := by
    rw [Nat.add_assoc]
    rfl
  rw [hcount]
  refine yields_bind (yields_newAlias n) ?_
  refine yields_bind (checkComparisons_yields (fun _ => rfl) xs (n + 1)) ?_
  refine yields_bind (manaParts_yields (aliasName n) xs (n + 1)) ?_
  exact yields_pure _ _

/-! ## All categories -/

/-- The fragment of a category, of filters that fit. -/
def fragmentOf (ctx : Context) (c : Category) (es : List Entry) : Numbered Fragment :=
  match c with
  | .name | .text => wordsFragment c (split es)
  | .color | .colorIdentity | .supertype | .type | .subtype => sideFragment c (split es)
  | .stat => numbersFragment ((statTests es).map StatTest.part)
  | .statVersusStat => numbersFragment ((versusTests es).map VersusTest.part)
  | .manaType => manaFragment (manaTests es)
  | .block => blockFragment ctx (split es)
  | .set | .artist | .rarity => printingFragment ctx.outer c (split es)
  | .flavorText => flavorFragment ctx.outer (split es)

/-- The compiler of a category that has filters builds its fragment, whatever the first
number is. -/
theorem compileCategory_yields {catalog : Catalog} (ctx : Context) {c : Category}
    {es : List Entry} (hne : es ≠ []) (hfit : ∀ e ∈ es, e.Fits catalog c) (n : Nat) :
    (compileCategory ctx c es).Yields n (some ((fragmentOf ctx c es).build n))
      (n + (fragmentOf ctx c es).size) := by
  have hcompared : es.isEmpty = false := by simp [hne]
  unfold compileCategory
  rw [hcompared]
  refine yields_map some ?_
  -- categories of values hold nothing else, and the others only their own comparisons
  have hvalues : c.comparesNumbers = false → ∀ e ∈ es, e.isValue = true :=
    fun hc e he => isValue_of_fits hc (hfit e he)
  cases c with
  | name => exact compileWords_yields hne (hvalues rfl) .name n
  | text => exact compileWords_yields hne (hvalues rfl) .text n
  | color => exact compileSide_yields hne (hvalues rfl) .color n
  | colorIdentity => exact compileSide_yields hne (hvalues rfl) .colorIdentity n
  | supertype => exact compileSide_yields hne (hvalues rfl) .supertype n
  | type => exact compileSide_yields hne (hvalues rfl) .type n
  | subtype => exact compileSide_yields hne (hvalues rfl) .subtype n
  | stat =>
    have h := compileStat_yields (statTests es) n
    rw [map_statTests hfit] at h
    exact h
  | statVersusStat =>
    have h := compileVersus_yields (versusTests es) n
    rw [map_versusTests hfit] at h
    exact h
  | manaType =>
    have h := compileMana_yields (manaTests es) n
    rw [map_manaTests hfit] at h
    exact h
  | block => exact compileBlock_yields hne (hvalues rfl) ctx n
  | set => exact compilePrinting_yields hne (hvalues rfl) ctx (by decide) n
  | artist => exact compilePrinting_yields hne (hvalues rfl) ctx (by decide) n
  | rarity => exact compilePrinting_yields hne (hvalues rfl) ctx (by decide) n
  | flavorText => exact compileFlavor_yields hne (hvalues rfl) ctx n

/-- The fragments of some categories, as parts that are laid out in turn. -/
def fragmentsOf (ctx : Context) (f : Filters) (cs : List Category) : List (Numbered Fragment) :=
  cs.map fun c => fragmentOf ctx c (f.entries c)

theorem compileAll_yields {catalog : Catalog} (ctx : Context) {f : Filters}
    (hfit : f.Fit catalog) {cs : List Category} (hactive : ∀ c ∈ cs, f.entries c ≠ []) (n : Nat) :
    (compileAll ctx f cs).Yields n (layout (fragmentsOf ctx f cs) n)
      (n + sizes (fragmentsOf ctx f cs)) := by
  induction cs generalizing n with
  | nil => exact yields_pure [] n
  | cons c cs ih =>
    have hrest : ∀ d ∈ cs, f.entries d ≠ [] := fun d hd => hactive d (List.mem_cons_of_mem c hd)
    have hfirst := compileCategory_yields ctx (hactive c List.mem_cons_self)
      (fun e he => fits_of_mem_entries hfit he) n
    simp only [fragmentsOf, List.map_cons, layout_cons, sizes_cons, ← Nat.add_assoc]
    exact yields_bind hfirst (yields_bind (ih hrest _) (yields_pure _ _))

theorem mem_active {f : Filters} {c : Category} : c ∈ f.active ↔ f.entries c ≠ [] := by
  simp [Filters.active, Category.mem_all]

/-- A category that is not active has no filters. -/
theorem entries_of_not_active {f : Filters} {c : Category} (h : c ∉ f.active) :
    f.entries c = [] := by
  by_contra hne
  exact h (mem_active.2 hne)

/-- The fragments of all active categories, behind the outer alias of number zero. -/
def activeFragments (blocks : Blocks) (f : Filters) : List Fragment :=
  layout (fragmentsOf ⟨aliasName 0, blocks⟩ f f.active) 1

/-- The statement of filters that fit is made, and this is it. -/
theorem statement_eq {catalog : Catalog} (blocks : Blocks) {f : Filters} (hfit : f.Fit catalog) :
    statement blocks f = .ok (selectPrintings (aliasName 0)
      (outerConditions (aliasName 0) (activeFragments blocks f))) := by
  have hall := compileAll_yields ⟨aliasName 0, blocks⟩ hfit (fun c hc => mem_active.1 hc) 1
  have hnumbered : (numberedStatement blocks f).Yields 0 _ _ :=
    yields_bind (yields_newAlias 0) (yields_bind hall (yields_pure _ _))
  unfold statement
  rw [hnumbered]
  rfl

end CardArchive
