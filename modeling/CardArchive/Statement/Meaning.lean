import CardArchive.Statement.Basic
import CardArchive.Statement.Cell

/-!
# What statements select

A statement is answered over relations: each table name stands for a list of
records, and a record gives a cell to each of its columns. While a statement is
answered, a scope says which record stands under each alias; a nested query sees
the scope that it is asked in.

## What this module delivers

* `Record`, `Relations` and `Scope`: what is selected from.
* `Expr.value`: the cell of a value or a condition in a scope.
* `Join.extend`: the scopes after a join.
* `Select.rows` and `Query.rows`: the selected rows.
-/

set_option autoImplicit false

namespace CardArchive

/-- The cells of a row by the names of its columns. -/
abbrev Record := List (String × Cell)

/-- The cell of a column; a column that is not there holds nothing. -/
def Record.cell (column : String) : Record → Cell
  | [] => .null
  | (c, v) :: rest => if c = column then v else Record.cell column rest

/-- The records of each table. -/
abbrev Relations := String → List Record

/-- The record that stands under each alias. -/
abbrev Scope := String → Record

/-- The scope in which nothing stands under any alias. -/
def Scope.empty : Scope := fun _ => []

/-- The scope with a record under an alias. -/
def Scope.bind (scope : Scope) (source : String) (r : Record) : Scope :=
  fun s => if s = source then r else scope s

/-- The cell of a column in a scope. -/
def Scope.cell (scope : Scope) (c : Column) : Cell := (scope c.source).cell c.name

/-- The cell of a literal. -/
def Literal.cell : Literal → Cell
  | .text s => .text s
  | .integer n => .integer n
  | .unsupported _ => .null

/-- Whether two scopes agree on some columns. -/
def agree (columns : List Column) (a b : Scope) : Bool :=
  columns.all fun c => a.cell c == b.cell c

/-- A scope that stands for a group, and all scopes of the group. -/
abbrev Group := Scope × List Scope

/-- The scopes in groups that agree on some columns, in the order of their first
members. Without columns each scope is a group of its own. -/
def grouped (columns : List Column) (scopes : List Scope) : List Group :=
  if columns.isEmpty then scopes.map fun s => (s, [s])
  else (scopes.eraseDupsBy (agree columns)).map fun s => (s, scopes.filter (agree columns s))

/-- The rows that several lists of rows have in common, each once. A single list
stays as it is. -/
def common : List (List (List Cell)) → List (List Cell)
  | [] => []
  | [rows] => rows
  | rows :: others => (rows.filter fun r => others.all fun o => o.contains r).eraseDups

/-- The first cell of each row. -/
def firstCells (rows : List (List Cell)) : List Cell := rows.map fun r => r.headD .null

/-- The scopes with each record under an alias for which a test holds. An outer
join keeps a scope without such a record, with nothing under the alias. -/
def joined (records : List Record) (source : String) (test : Scope → Truth) (outer : Bool)
    (scope : Scope) : List Scope :=
  let found := (records.map fun r => scope.bind source r).filter fun s => test s == some true
  if outer && found.isEmpty then [scope.bind source []] else found

mutual

/-- The cell of a value or a condition in a scope; `members` are the scopes of the
group that it stands for. -/
def Expr.value (db : Relations) (members : List Scope) (scope : Scope) : Expr → Cell
  | .column c => scope.cell c
  | .literal l => l.cell
  | .countDistinct c => .integer (distinctCount (members.map fun s => s.cell c))
  | .compare l o r => .ofTruth (compared o (l.value db members scope) (r.value db members scope))
  | .like c w negated => .ofTruth ((holdsPart w (scope.cell c)).flip negated)
  | .inValues c vs negated => .ofTruth ((among (scope.cell c) (vs.map Literal.cell)).flip negated)
  -- a nested query sees the scope that it is asked in
  | .inQuery c q negated =>
    .ofTruth ((among (scope.cell c) (firstCells (q.rows db scope))).flip negated)
  | .allOf parts => .ofTruth (Truth.all (truths db members scope parts))
  | .anyOf parts => .ofTruth (Truth.any (truths db members scope parts))
  | .coalesce v f => if v.value db members scope = .null then f.value db members scope
    else v.value db members scope

/-- What each of some conditions says. -/
def truths (db : Relations) (members : List Scope) (scope : Scope) : List Expr → List Truth
  | [] => []
  | e :: es => (e.value db members scope).truth :: truths db members scope es

/-- The scopes after a join. -/
def Join.extend (db : Relations) (scopes : List Scope) : Join → List Scope
  | .mk table source condition outer =>
    scopes.flatMap (joined (db table) source (fun s => (condition.value db [] s).truth) outer)

/-- The scopes after several joins. -/
def extendAll (db : Relations) (scopes : List Scope) : List Join → List Scope
  | [] => scopes
  | j :: js => extendAll db (j.extend db scopes) js

/-- Whether a group passes its condition, if there is one. -/
def passes (db : Relations) (g : Group) : Option Expr → Bool
  | none => true
  | some e => (e.value db g.2 g.1).truth == some true

/-- The selected rows. -/
def Select.rows (db : Relations) (scope : Scope) : Select → List (List Cell)
  | .mk columns table source joins conditions groupBy having =>
    let start := (db table).map fun r => scope.bind source r
    -- joins first, then the conditions, then the groups and their condition
    let kept := (extendAll db start joins).filter fun s =>
      Truth.all (truths db [] s conditions) == some true
    let groups := (grouped groupBy kept).filter fun g => passes db g having
    groups.map fun g => columns.map g.1.cell

/-- The rows of several selections. -/
def rowsOfAll (db : Relations) (scope : Scope) : List Select → List (List (List Cell))
  | [] => []
  | s :: ss => s.rows db scope :: rowsOfAll db scope ss

/-- The selected rows, or those that all selections have in common. -/
def Query.rows (db : Relations) (scope : Scope) : Query → List (List Cell)
  | .select s => s.rows db scope
  | .intersect parts => common (rowsOfAll db scope parts)

end

@[simp]
theorem Record.cell_nil (column : String) : Record.cell column [] = .null := rfl

/-- Under its alias stands the record just bound. -/
@[simp]
theorem Scope.bind_self (scope : Scope) (source : String) (r : Record) :
    scope.bind source r source = r := by
  simp [Scope.bind]

/-- Binding an alias changes no other one. -/
theorem Scope.bind_ne {source other : String} (h : other ≠ source) (scope : Scope) (r : Record) :
    scope.bind source r other = scope other := by
  simp [Scope.bind, h]

@[simp]
theorem grouped_nil (scopes : List Scope) : grouped [] scopes = scopes.map fun s => (s, [s]) := rfl

@[simp]
theorem common_single (rows : List (List Cell)) : common [rows] = rows := rfl

/-- What conditions say, one by one. -/
theorem truths_eq_map (db : Relations) (members : List Scope) (scope : Scope) (es : List Expr) :
    truths db members scope es = es.map fun e => (e.value db members scope).truth := by
  induction es with
  | nil => rfl
  | cons e es ih => simp [truths, ih]

end CardArchive
