import CardArchive.Filter.Partition
import CardArchive.Statement.Text
import CardArchive.Text.Order
import CardArchive.Value.Access

/-!
# Compiling a category

The filters of a category become one fragment of the statement: a selection of
card names if the category constrains the card, a condition on the printing of
the outer statement otherwise. Every table that a fragment reads gets an alias of
its own from one running number, in the order in which the fragment is built; a
number taken by a fragment that fails stays taken.

## What this module delivers

* `Numbering` and `newAlias`: computations that take alias numbers.
* `Context`: the outer alias and the sets of each block.
* `Fragment`: what a category compiles to.
* `compileCategory`: the fragment of a category.
-/

set_option autoImplicit false

namespace CardArchive

/-- A computation that takes alias numbers and may fail. -/
abbrev Numbering (α : Type) := ExceptT Failure (StateM Nat) α

/-- The alias with the next number. -/
def newAlias : Numbering String := do
  let n ← get
  set (n + 1)
  pure (aliasName n)

/-- A result that needs no alias. -/
def Numbering.ofExcept {α : Type} : Except Failure α → Numbering α
  | .ok a => pure a
  | .error e => throw e

/-- The sets of each block. -/
abbrev Blocks := List (String × List String)

/-- The sets of a block; an unknown block has none. -/
def Blocks.setsOf (blocks : Blocks) (block : String) : List String :=
  match blocks.find? fun b => b.1 == block with
  | some b => b.2
  | none => []

/-- What all fragments of a statement share. -/
structure Context where
  outer : String
  blocks : Blocks

/-- What a category compiles to. -/
inductive Fragment where
  | cards (s : Select)
  | printings (condition : Expr)

/-- The text of a fragment. -/
def Fragment.text? : Fragment → Except StatementFault String
  | cards s => s.text?
  | printings e => e.text?

/-! ## Tables and columns -/

/-- Table of the printings. -/
def printingTable : String := "CardExpansion"

/-- Column of a card that a word category searches. -/
def Category.wordColumn : Category → String
  | .text => "text"
  | _ => "name"

/-- Table and column of a category with several values for a card. -/
def Category.sideTable : Category → String × String
  | .color => ("Color", "color")
  | .colorIdentity => ("ColorIdentity", "color")
  | .supertype => ("Supertype", "type")
  | .type => ("Type", "type")
  | _ => ("Subtype", "type")

/-- Column of a printing that a category tests. -/
def Category.printingColumn : Category → String
  | .set => "expansion"
  | .artist => "artist"
  | .rarity => "rarity"
  | _ => "flavor_text"

/-- Table, value column and card column of a statistic. -/
def Stat.place : Stat → String × String × String
  | .cmc => ("Card", "cmc", "name")
  | .power => ("PowerToughness", "power_value", "card_name")
  | .toughness => ("PowerToughness", "toughness_value", "card_name")
  | .loyalty => ("Loyalty", "loyalty_value", "card_name")

/-- A test of a column for a list of texts. -/
def inTexts (c : Column) (values : List String) (negated : Bool) : Expr :=
  .inValues c (values.map Literal.text) negated

/-- A selection of one column under some conditions. -/
def selectColumn (c : Column) (table : String) (joins : List Join) (conditions : List Expr) :
    Select :=
  .mk [c] table c.source joins conditions [] none

/-- A selection of card names that occur with `count` different values of `c`. -/
def selectCovering (key : Column) (table : String) (joins : List Join) (c : Column)
    (values : List String) : Select :=
  .mk [key] table key.source joins [inTexts c values false] [key]
    (some (.compare (.countDistinct c) Operator.equal.text
      (.literal (.integer values.length))))

/-! ## Words -/

/-- Cards whose name or text passes the word tests. -/
def compileWords (c : Category) (es : List Entry) : Numbering Fragment := do
  let parts ← Numbering.ofExcept ((partition es).mapError Failure.statement)
  let source ← newAlias
  pure (.cards (selectColumn ⟨source, "name"⟩ "Card" []
    (parts.wordConditions ⟨source, c.wordColumn⟩)))

/-! ## Values of a card -/

/-- Cards with a row for one of the values. -/
def sideMembers (table column : String) (values : List String) : Numbering Select := do
  let source ← newAlias
  pure (selectColumn ⟨source, "card_name"⟩ table [] [inTexts ⟨source, column⟩ values false])

/-- Cards with a row for every one of the values. -/
def sideCovering (table column : String) (values : List String) : Numbering Select := do
  let source ← newAlias
  pure (selectCovering ⟨source, "card_name"⟩ table [] ⟨source, column⟩ values)

/-- A condition that is needed in one case only. -/
def onlyIf (needed : Bool) (condition : Numbering Expr) : Numbering (List Expr) :=
  if needed then do
    let e ← condition
    pure [e]
  else pure []

/-- Cards by their rows in a table of several values for a card. If values are
only forbidden, the cards without any row take part as well. -/
def compileSide (c : Category) (es : List Entry) : Numbering Fragment := do
  let table := c.sideTable.1
  let column := c.sideTable.2
  let parts ← Numbering.ofExcept ((partition es).mapError Failure.statement)
  let source ← newAlias
  let byRows := !parts.included.isEmpty
  let key : Column := ⟨source, if byRows then "card_name" else "name"⟩
  let value : Column := ⟨source, column⟩
  let ownForbidden :=
    if byRows && !parts.disallow.isEmpty then [inTexts value parts.disallow true] else []
  let ownIncluded := if byRows then [inTexts value parts.included false] else []
  -- the nested selections take their aliases in this order
  let covering ← onlyIf (!parts.must.isEmpty) do
    let s ← sideCovering table column parts.must
    pure (.inQuery key (.select s) false)
  let members ← onlyIf (!parts.must.isEmpty && !parts.oneOf.isEmpty) do
    let s ← sideMembers table column parts.oneOf
    pure (.inQuery key (.select s) false)
  let forbidden ← onlyIf (!parts.disallow.isEmpty) do
    let s ← sideMembers table column parts.disallow
    pure (.inQuery key (.select s) true)
  pure (.cards (selectColumn key (if byRows then table else "Card") []
    (ownForbidden ++ ownIncluded ++ covering ++ members ++ forbidden)))

/-! ## Values of a printing -/

/-- Cards with printings that cover every one of the values. -/
def printingCovering (column : String) (values : List String) : Numbering Select := do
  let source ← newAlias
  pure (selectCovering ⟨source, "card_name"⟩ printingTable [] ⟨source, column⟩ values)

/-- Cards with a printing that has one of the values. -/
def printingMembers (column : String) (values : List String) : Numbering Select := do
  let source ← newAlias
  pure (selectColumn ⟨source, "card_name"⟩ printingTable []
    [inTexts ⟨source, column⟩ values false])

/-- The tests of a printing's own value, given the values that each mode stands
for. -/
def ownTests (c : Column) (forbidden included : Option (List String)) : List Expr :=
  (match forbidden with
    | some vs => [inTexts c vs true]
    | none => []) ++
  (match included with
    | some vs => [inTexts c vs false]
    | none => [])

/-- The values, if there are any. -/
def nonempty? (vs : List String) : Option (List String) := if vs.isEmpty then none else some vs

/-- Whether the card's other printings have to be looked at: a printing holds one
value, so several required values are spread over printings. -/
def Partition.spansPrintings (p : Partition) : Bool :=
  1 < p.must.length || (!p.must.isEmpty && !p.oneOf.isEmpty)

/-- Printings by their own value and by the values of the card's printings. -/
def compilePrinting (ctx : Context) (c : Category) (es : List Entry) : Numbering Fragment := do
  let parts ← Numbering.ofExcept ((partition es).mapError Failure.statement)
  let value : Column := ⟨ctx.outer, c.printingColumn⟩
  let card : Column := ⟨ctx.outer, "card_name"⟩
  if c = .flavorText then pure (.printings (.allOf (parts.wordConditions value)))
  else do
    let covering ← onlyIf parts.spansPrintings do
      let s ← printingCovering c.printingColumn parts.must
      pure (.inQuery card (.select s) false)
    let members ← onlyIf (!parts.must.isEmpty && !parts.oneOf.isEmpty) do
      let s ← printingMembers c.printingColumn parts.oneOf
      pure (.inQuery card (.select s) false)
    pure (.printings (.allOf
      (ownTests value (nonempty? parts.disallow) (nonempty? parts.included) ++ covering ++
        members)))

/-! ## Blocks -/

/-- The join of the printings under one alias with their blocks under another. -/
def blockJoin (printing block : String) : Join :=
  .mk "Block" block
    (.compare (.column ⟨printing, "expansion"⟩) Operator.equal.text
      (.column ⟨block, "expansion"⟩)) false

/-- Cards with a printing in every one of the blocks. -/
def blockCovering (blocks : List String) : Numbering Select := do
  let printing ← newAlias
  let block ← newAlias
  pure (selectCovering ⟨printing, "card_name"⟩ printingTable [blockJoin printing block]
    ⟨block, "block"⟩ blocks)

/-- Cards with a printing in one of the blocks. -/
def blockMembers (blocks : List String) : Numbering Select := do
  let printing ← newAlias
  let block ← newAlias
  pure (selectColumn ⟨printing, "card_name"⟩ printingTable [blockJoin printing block]
    [inTexts ⟨block, "block"⟩ blocks false])

/-- The sets of some blocks, each once, in order. -/
def Blocks.setsOfAll (blocks : Blocks) (names : List String) : List String :=
  Text.sorted (names.flatMap blocks.setsOf).eraseDups

/-- Printings by the blocks of their sets. -/
def compileBlock (ctx : Context) (es : List Entry) : Numbering Fragment := do
  let parts ← Numbering.ofExcept ((partition es).mapError Failure.statement)
  let set : Column := ⟨ctx.outer, "expansion"⟩
  let card : Column := ⟨ctx.outer, "card_name"⟩
  let sets := fun names => (nonempty? names).map ctx.blocks.setsOfAll
  let covering ← onlyIf parts.spansPrintings do
    let s ← blockCovering parts.must
    pure (.inQuery card (.select s) false)
  let members ← onlyIf (!parts.must.isEmpty && !parts.oneOf.isEmpty) do
    let s ← blockMembers parts.oneOf
    pure (.inQuery card (.select s) false)
  pure (.printings (.allOf
    (ownTests set (sets parts.disallow) (sets parts.included) ++ covering ++ members)))

/-! ## Numbers -/

/-- A table under an alias, with the column that names the card. -/
structure Source where
  table : String
  source : String
  key : String

/-- The column of a source that names the card. -/
def Source.keyColumn (s : Source) : Column := ⟨s.source, s.key⟩

/-- The join of a further source with the first one, on the card. -/
def Source.join (base s : Source) : Join :=
  .mk s.table s.source
    (.compare (.column base.keyColumn) Operator.equal.text (.column s.keyColumn)) false

/-- Cards for which all conditions on the sources hold. Without a source there is
nothing to select from, and no card is named. -/
def selectNumbers (sources : List Source) (conditions : List Expr) : Select :=
  match sources with
  | [] => .mk [] "Card" "" [] conditions [] none
  | base :: rest => selectColumn base.keyColumn base.table (rest.map base.join) conditions

/-- Refuses filters that are no comparisons. -/
def checkComparisons (es : List Entry) : Numbering Unit :=
  if es.any Entry.isValue then throw (.statement .expectedComparison) else pure ()

/-- The statistic of a side that has to be one. -/
def Term.stat? : Term → Except ShapeFault Stat
  | .stat s => .ok s
  | .value v => do
    v.checkHashable
    .error (.missingKey v.quoted)

/-- A side of a comparison as a literal. -/
def Term.literal : Term → Literal
  | .stat s => .unsupported s.quoted
  | .value (.text s) => .text s
  | .value (.int n) => .integer n
  | .value v => .unsupported v.quoted

/-- The source of a statistic under a new alias, and its value column. -/
def newSource (s : Stat) : Numbering (Source × Column) := do
  let source ← newAlias
  pure (⟨s.place.1, source, s.place.2.2⟩, ⟨source, s.place.2.1⟩)

/-- Sources and conditions of comparisons of a statistic with a number. -/
def statParts : List Entry → Numbering (List Source × List Expr)
  | [] => pure ([], [])
  | .value _ _ :: es => statParts es
  | .comparison l o r :: es => do
    let stat ← Numbering.ofExcept (l.stat?.mapError Failure.shape)
    -- one source for each comparison, also of the same statistic
    let (source, value) ← newSource stat
    let (sources, conditions) ← statParts es
    pure (source :: sources,
      .compare (.column value) o.text (.literal r.literal) :: conditions)

/-- Sources and conditions of comparisons of two statistics. -/
def versusParts : List Entry → Numbering (List Source × List Expr)
  | [] => pure ([], [])
  | .value _ _ :: es => versusParts es
  | .comparison l o r :: es => do
    let left ← Numbering.ofExcept (l.stat?.mapError Failure.shape)
    -- both sides are checked before either takes an alias
    let right ← Numbering.ofExcept (r.stat?.mapError Failure.shape)
    let (leftSource, leftValue) ← newSource left
    let (rightSource, rightValue) ← newSource right
    let (sources, conditions) ← versusParts es
    pure (leftSource :: rightSource :: sources,
      .compare (.column leftValue) o.text (.column rightValue) :: conditions)

/-- Joins and conditions of comparisons of the count of a mana symbol; a card
without a row for the symbol has none of it. -/
def manaParts (card : String) : List Entry → Numbering (List Join × List Expr)
  | [] => pure ([], [])
  | .value _ _ :: es => manaParts card es
  | .comparison l o r :: es => do
    let source ← newAlias
    let (joins, conditions) ← manaParts card es
    pure (.mk "Mana" source (.allOf [
        .compare (.column ⟨card, "name"⟩) Operator.equal.text (.column ⟨source, "card_name"⟩),
        .compare (.column ⟨source, "mana_type"⟩) Operator.equal.text (.literal l.literal)]) true
        :: joins,
      .compare (.coalesce (.column ⟨source, "quantity"⟩) (.literal (.integer 0))) o.text
        (.literal r.literal) :: conditions)

/-- Cards by comparisons of a statistic with a number. -/
def compileStat (es : List Entry) : Numbering Fragment := do
  checkComparisons es
  let (sources, conditions) ← statParts es
  pure (.cards (selectNumbers sources conditions))

/-- Cards by comparisons of two statistics. -/
def compileVersus (es : List Entry) : Numbering Fragment := do
  checkComparisons es
  let (sources, conditions) ← versusParts es
  pure (.cards (selectNumbers sources conditions))

/-- Cards by comparisons of counts of mana symbols. -/
def compileMana (es : List Entry) : Numbering Fragment := do
  -- the alias of the card is taken even if the filters are refused
  let card ← newAlias
  checkComparisons es
  let (joins, conditions) ← manaParts card es
  pure (.cards (selectColumn ⟨card, "name"⟩ "Card" joins conditions))

/-! ## All categories -/

/-- The fragment of a category, none if it has no filters. -/
def compileCategory (ctx : Context) (c : Category) (es : List Entry) :
    Numbering (Option Fragment) :=
  if es.isEmpty then pure none
  else some <$>
    match c with
    | .name | .text => compileWords c es
    | .color | .colorIdentity | .supertype | .type | .subtype => compileSide c es
    | .stat => compileStat es
    | .statVersusStat => compileVersus es
    | .manaType => compileMana es
    | .block => compileBlock ctx es
    | .set | .artist | .rarity | .flavorText => compilePrinting ctx c es

end CardArchive
