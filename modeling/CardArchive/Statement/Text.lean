import CardArchive.Failure
import CardArchive.Statement.Basic

/-!
# Statements as text

A statement is written as a list of pieces: code, whose words the library chose,
and quoted texts, which carry the values of a search. Inside a quoted text every
apostrophe is doubled, so a value never ends it.

## What this module delivers

* `Piece` and `Piece.text`: one part of a written statement.
* `Expr.pieces`, `Select.pieces`, `Query.pieces`: the parts of a tree, or what it
  lacks to be written.
* `Query.text?` and `Expr.text?`: the written tree.
-/

set_option autoImplicit false

namespace CardArchive

/-- One part of a written statement. -/
inductive Piece where
  | code (s : String)
  | quoted (s : String)
deriving DecidableEq

/-- The characters with every apostrophe doubled. -/
def doubled : List Char → List Char
  | [] => []
  | c :: cs => if c = '\'' then c :: c :: doubled cs else c :: doubled cs

/-- A piece as written. -/
def Piece.text : Piece → String
  | code s => s
  | quoted s => String.ofList ('\'' :: doubled s.toList ++ ['\''])

/-- The pieces as one text. -/
def Piece.join (ps : List Piece) : String := String.join (ps.map Piece.text)

/-- The parts with the same code between any two. -/
def separated (code : String) : List (List Piece) → List Piece
  | [] => []
  | [p] => p
  | p :: ps => p ++ Piece.code code :: separated code ps

/-- A column as written. -/
def Column.pieces (c : Column) : List Piece := [.code (c.source ++ "." ++ c.name)]

/-- A literal as written. -/
def Literal.pieces : Literal → Except StatementFault (List Piece)
  | text s => .ok [.quoted s]
  | integer n => .ok [.code (toString n)]
  | unsupported w => .error (.unsupportedLiteral w)

/-- The word of a test, or of its negation. -/
def keyword (negated : Bool) (word : String) : String :=
  if negated then " NOT " ++ word ++ " " else " " ++ word ++ " "

mutual

/-- A value or a condition as written. A disjunction stands in parentheses if it
has more than one part; a conjunction needs none, as it binds tighter. -/
def Expr.pieces : Expr → Except StatementFault (List Piece)
  | .column c => .ok c.pieces
  | .literal l => l.pieces
  | .countDistinct c => .ok (.code "COUNT(DISTINCT " :: c.pieces ++ [.code ")"])
  | .compare l o r => do
    let left ← l.pieces
    let right ← r.pieces
    pure (left ++ .code (" " ++ o ++ " ") :: right)
  | .like c w negated =>
    .ok (c.pieces ++ [.code (keyword negated "LIKE"), .quoted ("%" ++ w ++ "%")])
  | .inValues c vs negated => do
    let values ← vs.mapM Literal.pieces
    pure (c.pieces ++ .code (keyword negated "IN" ++ "(") :: separated ", " values ++
      [.code ")"])
  | .inQuery c q negated => do
    let query ← q.pieces
    pure (c.pieces ++ .code (keyword negated "IN" ++ "(") :: query ++ [.code ")"])
  | .allOf parts =>
    if parts.isEmpty then .error .emptyConjunction
    else do
      let written ← allPieces parts
      pure (separated " AND " written)
  | .anyOf parts =>
    if parts.isEmpty then .error .emptyDisjunction
    else do
      let written ← allPieces parts
      pure (if written.length = 1 then separated " OR " written
        else .code "(" :: separated " OR " written ++ [.code ")"])
  | .coalesce v f => do
    let value ← v.pieces
    let fallback ← f.pieces
    pure (.code "COALESCE(" :: value ++ .code ", " :: fallback ++ [.code ")"])

/-- Each of the values or conditions as written. -/
def allPieces : List Expr → Except StatementFault (List (List Piece))
  | [] => .ok []
  | e :: es => do
    let first ← e.pieces
    let rest ← allPieces es
    pure (first :: rest)

/-- A join as written. -/
def Join.pieces : Join → Except StatementFault (List Piece)
  | .mk table source condition outer => do
    let on ← condition.pieces
    pure (.code ((if outer then "LEFT JOIN " else "JOIN ") ++ table ++ " " ++ source ++ " ON ") ::
      on)

/-- Each of the joins as written. -/
def joinPieces : List Join → Except StatementFault (List (List Piece))
  | [] => .ok []
  | j :: js => do
    let first ← j.pieces
    let rest ← joinPieces js
    pure (first :: rest)

/-- A condition on groups as written, if there is one. -/
def havingPieces : Option Expr → Except StatementFault (List (List Piece))
  | none => .ok []
  | some e => do
    let written ← e.pieces
    pure [.code "HAVING " :: written]

/-- A selection as written, clause by clause. -/
def Select.pieces : Select → Except StatementFault (List Piece)
  | .mk columns table source joins conditions groupBy having => do
    let joins ← joinPieces joins
    let tests ← allPieces conditions
    let having ← havingPieces having
    pure (separated " " (
      (.code "SELECT " :: separated ", " (columns.map Column.pieces)) ::
      [.code ("FROM " ++ table ++ " " ++ source)] :: joins ++
      (if tests.isEmpty then [] else [.code "WHERE " :: separated " AND " tests]) ++
      (if groupBy.isEmpty then []
        else [.code "GROUP BY " :: separated ", " (groupBy.map Column.pieces)]) ++
      having))

/-- Each of the selections as written. -/
def selectPieces : List Select → Except StatementFault (List (List Piece))
  | [] => .ok []
  | s :: ss => do
    let first ← s.pieces
    let rest ← selectPieces ss
    pure (first :: rest)

/-- A query as written. -/
def Query.pieces : Query → Except StatementFault (List Piece)
  | .select s => s.pieces
  | .intersect parts =>
    if parts.isEmpty then .error .emptyIntersection
    else do
      let written ← selectPieces parts
      pure (separated " INTERSECT " written)

end

/-- The text of a value or a condition. -/
def Expr.text? (e : Expr) : Except StatementFault String := e.pieces.map Piece.join

/-- The text of a join. -/
def Join.text? (j : Join) : Except StatementFault String := j.pieces.map Piece.join

/-- The text of a selection. -/
def Select.text? (s : Select) : Except StatementFault String := s.pieces.map Piece.join

/-- The text of a query. -/
def Query.text? (q : Query) : Except StatementFault String := q.pieces.map Piece.join

@[simp]
theorem doubled_nil : doubled [] = [] := rfl

@[simp]
theorem separated_nil (code : String) : separated code [] = [] := rfl

@[simp]
theorem separated_single (code : String) (p : List Piece) : separated code [p] = p := rfl

@[simp]
theorem Piece.join_nil : Piece.join [] = "" := rfl

end CardArchive
