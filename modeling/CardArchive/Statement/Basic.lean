/-!
# Statements

A search becomes one statement tree: rows are selected from tables under aliases,
conditions test columns of these rows, and nested queries give lists of values to
test against. The tree is built first and written out at the end, so the numbers
of aliases and the order of clauses are fixed by its construction alone.

## What this module delivers

* `Column` and `Literal`: the leaves.
* `Expr`: values and conditions.
* `Join`, `Select` and `Query`: selections of rows and their intersection.
* `aliasName`: the alias with a given number.
-/

set_option autoImplicit false

namespace CardArchive

/-- A column of the rows under an alias. -/
structure Column where
  source : String
  name : String
deriving DecidableEq

/-- A value written into a statement. Only texts and integers can be written. -/
inductive Literal where
  | text (s : String)
  | integer (n : Int)
  | unsupported (written : String)
deriving DecidableEq

mutual

/-- A value or a condition. -/
inductive Expr where
  | column (c : Column)
  | literal (l : Literal)
  | countDistinct (c : Column)
  | compare (left : Expr) (operator : String) (right : Expr)
  | like (c : Column) (word : String) (negated : Bool)
  | inValues (c : Column) (values : List Literal) (negated : Bool)
  | inQuery (c : Column) (query : Query) (negated : Bool)
  | allOf (parts : List Expr)
  | anyOf (parts : List Expr)
  | coalesce (value fallback : Expr)

/-- A further table whose rows are matched by a condition; an outer join keeps
rows without a match. -/
inductive Join where
  | mk (table : String) (source : String) (condition : Expr) (outer : Bool)

/-- A selection of columns from a table and its joins. The conditions all have to
hold, and at most one condition tests the groups. -/
inductive Select where
  | mk (columns : List Column) (table : String) (source : String) (joins : List Join)
      (conditions : List Expr) (groupBy : List Column) (having : Option Expr)

/-- A selection, or the rows that several selections have in common. -/
inductive Query where
  | select (s : Select)
  | intersect (parts : List Select)

end

instance : Inhabited Expr := ⟨.allOf []⟩

instance : Inhabited Join := ⟨.mk "" "" default false⟩

instance : Inhabited Select := ⟨.mk [] "" "" [] [] [] none⟩

instance : Inhabited Query := ⟨.intersect []⟩

/-- The alias with the given number. -/
def aliasName (n : Nat) : String := "t" ++ Nat.repr n

end CardArchive
