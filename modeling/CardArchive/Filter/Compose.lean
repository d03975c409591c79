import CardArchive.Filter.Compile
import CardArchive.Statement.Text

/-!
# The statement of a search

A search reads the printings under the alias `t0`. The fragments that constrain
the card are intersected and tested once against the card of the printing; the
fragments that constrain the printing are further conditions. Without filters
every printing is selected.

## What this module delivers

* `printingIdentity`: the columns of every statement.
* `statement`: the statement tree of some filters.
* `compose`: its text.
-/

set_option autoImplicit false

namespace CardArchive

/-- The columns that identify a printing. -/
def printingIdentity : List String := ["card_name", "expansion", "number"]

/-- The fragments of some categories, in order. -/
def compileAll (ctx : Context) (f : Filters) : List Category → Numbering (List Fragment)
  | [] => pure []
  | c :: cs => do
    let first ← compileCategory ctx c (f.entries c)
    let rest ← compileAll ctx f cs
    pure (first.toList ++ rest)

/-- The selections of card names among some fragments. -/
def cardSelections (fs : List Fragment) : List Select :=
  fs.filterMap fun
    | .cards s => some s
    | .printings _ => none

/-- The conditions on printings among some fragments. -/
def printingConditions (fs : List Fragment) : List Expr :=
  fs.filterMap fun
    | .cards _ => none
    | .printings e => some e

/-- The conditions of the statement of some fragments. -/
def outerConditions (outer : String) (fs : List Fragment) : List Expr :=
  (if (cardSelections fs).isEmpty then []
    else [.inQuery ⟨outer, "card_name"⟩ (.intersect (cardSelections fs)) false]) ++
  printingConditions fs

/-- The selection of printings under some conditions. -/
def selectPrintings (outer : String) (conditions : List Expr) : Select :=
  .mk (printingIdentity.map (Column.mk outer)) printingTable outer [] conditions [] none

/-- The statement of some filters, with its aliases taken from a numbering. -/
def numberedStatement (blocks : Blocks) (f : Filters) : Numbering Select := do
  let outer ← newAlias
  let fragments ← compileAll ⟨outer, blocks⟩ f f.active
  pure (selectPrintings outer (outerConditions outer fragments))

/-- The statement of some filters. -/
def statement (blocks : Blocks) (f : Filters) : Except Failure Select :=
  ((numberedStatement blocks f).run.run 0).1

/-- The text of the statement of some filters. -/
def compose (blocks : Blocks) (f : Filters) : Except Failure String := do
  let s ← statement blocks f
  s.text?.mapError Failure.statement

@[simp]
theorem cardSelections_nil : cardSelections [] = [] := rfl

@[simp]
theorem printingConditions_nil : printingConditions [] = [] := rfl

end CardArchive
