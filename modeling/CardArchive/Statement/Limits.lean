import CardArchive.Statement.Meaning
import CardArchive.Statement.Text

/-!
# What a database takes

A database does not answer every statement that can be written. It refuses a text that is
too long or holds the null character, a selection from too many tables, and a condition
whose tree is too high. A pattern that is too long is refused only when it is put to a
record.

The height of a condition is that of the tree which a parser makes of it: a chain of
conjunctions leans to one side, so it grows by one with every part, and a column is a tree
of its own. A nested query is looked at from within the conditions around it, and the
heights of all of these are added.

## What this module delivers

* `Expr.texts`, `Select.texts`: the texts that a tree holds, in the order of the text.
* `Expr.height`, `Select.height`: how high the trees are that a parser makes.
* `Select.depth`: the largest sum of heights from a nested query outwards.
* `Select.demands`: the words that a tree looks for, and from how many tables each of its
  selections reads.
* `Select.overruns`: whether answering a statement meets a pattern that is too long.
* `Frame` and `Frame.refusal?`: the statements that a search is put in, and why one of them
  is not taken.
-/

set_option autoImplicit false

namespace CardArchive

/-! ## Texts of a tree -/

/-- The text of a literal, if it is one. -/
def Literal.texts : Literal → List String
  | .text s => [s]
  | _ => []

mutual

/-- The values and the words, with the wildcards around them, that a value or a condition
holds, in the order of the text. -/
def Expr.texts : Expr → List String
  | .literal l => l.texts
  | .compare l _ r => l.texts ++ r.texts
  | .like _ w _ => ["%" ++ w ++ "%"]
  | .inValues _ vs _ => vs.flatMap Literal.texts
  | .inQuery _ q _ => q.texts
  | .allOf parts => allTexts parts
  | .anyOf parts => allTexts parts
  | .coalesce v f => v.texts ++ f.texts
  | _ => []

/-- The texts that values or conditions hold. -/
def allTexts : List Expr → List String
  | [] => []
  | e :: es => e.texts ++ allTexts es

/-- The texts that a join holds. -/
def Join.texts : Join → List String
  | .mk _ _ condition _ => condition.texts

/-- The texts that joins hold. -/
def joinsTexts : List Join → List String
  | [] => []
  | j :: js => j.texts ++ joinsTexts js

/-- The texts that a condition on groups holds. -/
def havingTexts : Option Expr → List String
  | none => []
  | some e => e.texts

/-- The texts that a selection holds. -/
def Select.texts : Select → List String
  | .mk _ _ _ joins conditions _ having =>
    joinsTexts joins ++ allTexts conditions ++ havingTexts having

/-- The texts that selections hold. -/
def selectsTexts : List Select → List String
  | [] => []
  | s :: ss => s.texts ++ selectsTexts ss

/-- The texts that a query holds. -/
def Query.texts : Query → List String
  | .select s => s.texts
  | .intersect parts => selectsTexts parts

end

/-! ## Heights -/

/-- Height of a chain of parts, each of which is joined to all that stands before it. -/
def chained : List Nat → Nat
  | [] => 0
  | h :: hs => hs.foldl (fun high next => max high next + 1) h

/-- Height of the higher of some parts. -/
def highest (hs : List Nat) : Nat := hs.foldr max 0

/-- Height of a column: its two names are joined by the point. -/
def columnHeight : Nat := 2

/-- Height of a literal, of which a negative one has a sign over it. -/
def Literal.height : Literal → Nat
  | .integer n => if n < 0 then 2 else 1
  | _ => 1

/-- Height of a test, with its negation over it if there is one. -/
def testHeight (negated : Bool) (parts : List Nat) : Nat :=
  highest parts + 1 + (if negated then 1 else 0)

mutual

/-- Height of a value or a condition. -/
def Expr.height : Expr → Nat
  | .column _ => columnHeight
  | .literal l => l.height
  | .countDistinct _ => columnHeight + 1
  | .compare l _ r => max l.height r.height + 1
  | .like _ _ negated => testHeight negated [columnHeight, 1]
  | .inValues _ vs negated => testHeight negated (columnHeight :: vs.map Literal.height)
  | .inQuery _ q negated => testHeight negated [columnHeight, q.height]
  | .allOf parts => chained (conjunctHeights parts)
  | .anyOf parts => chained (heights parts)
  | .coalesce v f => max v.height f.height + 1

/-- Heights of some conditions. -/
def heights : List Expr → List Nat
  | [] => []
  | e :: es => e.height :: heights es

/-- Heights of the parts of a conjunction. A conjunction among them is written without
parentheses, so its parts join the chain one by one. -/
def conjunctHeights : List Expr → List Nat
  | [] => []
  | .allOf parts :: es => conjunctHeights parts ++ conjunctHeights es
  | e :: es => e.height :: conjunctHeights es

/-- Height of a selection where it is nested; its joins do not count there. -/
def Select.height : Select → Nat
  | .mk _ _ _ _ conditions _ having =>
    highest [columnHeight, chained (conjunctHeights conditions), havingHeight having]

/-- Height of a condition on groups, if there is one. -/
def havingHeight : Option Expr → Nat
  | none => 0
  | some e => e.height

/-- Height of the highest of some selections. -/
def selectsHeight : List Select → Nat
  | [] => 0
  | s :: ss => max s.height (selectsHeight ss)

/-- Height of a query where it is nested. -/
def Query.height : Query → Nat
  | .select s => s.height
  | .intersect parts => selectsHeight parts

end

/-- Heights of the conditions of some joins, each of which is one part. -/
def joinHeights (js : List Join) : List Nat :=
  js.map fun | .mk _ _ condition _ => condition.height

/-- Height of the one condition that a selection comes to: those of its joins are joined to
its own. -/
def Select.testHeight : Select → Nat
  | .mk _ _ _ joins conditions _ _ => chained (conjunctHeights conditions ++ joinHeights joins)

mutual

/-- The largest sum of heights in the queries that are nested in a condition, where those of
the conditions around it add up to `base`. -/
def Expr.depth (base : Nat) : Expr → Nat
  | .inQuery _ q _ => q.depth base
  | .compare l _ r => max (l.depth base) (r.depth base)
  | .allOf parts => depths base parts
  | .anyOf parts => depths base parts
  | .coalesce v f => max (v.depth base) (f.depth base)
  | _ => 0

/-- The largest sum of heights in some conditions. -/
def depths (base : Nat) : List Expr → Nat
  | [] => 0
  | e :: es => max (e.depth base) (depths base es)

/-- The largest sum of heights in the conditions of some joins. -/
def joinDepths (base : Nat) : List Join → Nat
  | [] => 0
  | .mk _ _ condition _ :: js => max (condition.depth base) (joinDepths base js)

/-- The largest sum of heights in a selection, its own among them. -/
def Select.depth (base : Nat) : Select → Nat
  | .mk _ _ _ joins conditions _ having =>
    let tests := base + chained (conjunctHeights conditions ++ joinHeights joins)
    highest [base + columnHeight, tests, depths tests conditions, joinDepths tests joins,
      havingDepth base having]

/-- The largest sum of heights in a condition on groups. -/
def havingDepth (base : Nat) : Option Expr → Nat
  | none => 0
  | some e => max (base + e.height) (e.depth (base + e.height))

/-- The largest sum of heights in some selections. -/
def selectsDepth (base : Nat) : List Select → Nat
  | [] => 0
  | s :: ss => max (s.depth base) (selectsDepth base ss)

/-- The largest sum of heights in a query. -/
def Query.depth (base : Nat) : Query → Nat
  | .select s => s.depth base
  | .intersect parts => selectsDepth base parts

end

/-! ## Tables and words -/

/-- What a tree asks of the database at one place: to look for a word, or to read from so
many tables at once. -/
inductive Demand where
  | word (w : String)
  | sources (count : Nat)
deriving DecidableEq

mutual

/-- What a condition asks of the database. -/
def Expr.demands : Expr → List Demand
  | .like _ w _ => [.word w]
  | .inQuery _ q _ => q.demands
  | .compare l _ r => l.demands ++ r.demands
  | .allOf parts => allDemands parts
  | .anyOf parts => allDemands parts
  | .coalesce v f => v.demands ++ f.demands
  | _ => []

/-- What conditions ask of the database. -/
def allDemands : List Expr → List Demand
  | [] => []
  | e :: es => e.demands ++ allDemands es

/-- What the conditions of joins ask of the database. -/
def joinDemands : List Join → List Demand
  | [] => []
  | .mk _ _ condition _ :: js => condition.demands ++ joinDemands js

/-- What a selection asks of the database. -/
def Select.demands : Select → List Demand
  | .mk _ _ _ joins conditions _ having =>
    .sources (joins.length + 1) ::
      (joinDemands joins ++ allDemands conditions ++ havingDemands having)

/-- What a condition on groups asks of the database. -/
def havingDemands : Option Expr → List Demand
  | none => []
  | some e => e.demands

/-- What selections ask of the database. -/
def selectsDemands : List Select → List Demand
  | [] => []
  | s :: ss => s.demands ++ selectsDemands ss

/-- What a query asks of the database. -/
def Query.demands : Query → List Demand
  | .select s => s.demands
  | .intersect parts => selectsDemands parts

end

/-- Whether so many tables are read from at once that it is more than a limit. -/
def Demand.isMore (limit : Nat) : Demand → Bool
  | sources n => limit < n
  | word _ => false

/-- Whether a selection of a tree reads from more than so many tables. -/
def Select.readsMore (s : Select) (limit : Nat) : Bool := s.demands.any (Demand.isMore limit)

/-- Number of bytes that a pattern may have. -/
def patternLimit : Nat := 50000

/-- Whether the pattern of a word is too long to be put to a record. -/
def isLongWord (w : String) : Bool := patternLimit < ("%" ++ w ++ "%").utf8ByteSize

/-- Whether a word is looked for whose pattern is too long. -/
def Demand.isLong : Demand → Bool
  | word w => isLongWord w
  | sources _ => false

/-- Whether a tree looks for a word whose pattern is too long. -/
def Select.hasLongWord (s : Select) : Bool := s.demands.any Demand.isLong

mutual

/-- Whether testing a condition puts a pattern that is too long to a record. -/
def Expr.overruns (db : Relations) (scope : Scope) : Expr → Bool
  | .like _ w _ => isLongWord w
  | .inQuery _ q _ => q.overruns db scope
  | .compare l _ r => l.overruns db scope || r.overruns db scope
  | .allOf parts => conjunctionOverruns db scope parts
  | .anyOf parts => disjunctionOverruns db scope parts
  | .coalesce v f => v.overruns db scope || f.overruns db scope
  | _ => false

/-- Whether testing conditions puts a pattern that is too long to a record. The first one
that does not hold is the last that is tested. -/
def conjunctionOverruns (db : Relations) (scope : Scope) : List Expr → Bool
  | [] => false
  | e :: es => e.overruns db scope ||
      ((e.value db [] scope).truth == some true && conjunctionOverruns db scope es)

/-- Whether testing alternatives puts a pattern that is too long to a record. The first one
that holds is the last that is tested. -/
def disjunctionOverruns (db : Relations) (scope : Scope) : List Expr → Bool
  | [] => false
  | e :: es => e.overruns db scope ||
      ((e.value db [] scope).truth != some true && disjunctionOverruns db scope es)

/-- Whether answering a selection puts a pattern that is too long to a record. In which
order tables are gone through is up to the database; here it is that of the text. -/
def Select.overruns (db : Relations) (scope : Scope) : Select → Bool
  | .mk _ table source joins conditions _ _ =>
    (extendAll db ((db table).map fun r => scope.bind source r) joins).any fun s =>
      conjunctionOverruns db s conditions

/-- Whether answering selections puts a pattern that is too long to a record. -/
def selectsOverrun (db : Relations) (scope : Scope) : List Select → Bool
  | [] => false
  | s :: ss => s.overruns db scope || selectsOverrun db scope ss

/-- Whether answering a query puts a pattern that is too long to a record. -/
def Query.overruns (db : Relations) (scope : Scope) : Query → Bool
  | .select s => s.overruns db scope
  | .intersect parts => selectsOverrun db scope parts

end

/-! ## Whole statements -/

/-- Number of bytes that a statement may have. -/
def statementLimit : Nat := 1000000000

/-- Number of tables that may be named behind one `FROM`. -/
def sourceLimit : Nat := 200

/-- Number of tables that one selection may read from. -/
def joinLimit : Nat := 64

/-- Largest height of a condition, with those of the conditions around it. -/
def depthLimit : Nat := 1000

/-- The statements that the statement of a search is put in: none, one that lists a page of
what it selects, and one that counts it. -/
inductive Frame where
  | alone
  | listing
  | counting
deriving DecidableEq

/-- What a frame writes before a search. -/
def Frame.opening : Frame → String
  | alone => ""
  | listing => "\n            SELECT q.card_name, q.expansion, q.number, ce.rarity, ce.artist" ++
      "\n            FROM ("
  | counting => "SELECT COUNT(*) FROM ("

/-- What a frame writes behind a search. -/
def Frame.closing : Frame → String
  | alone => ""
  | listing => ") q" ++
      "\n            JOIN CardExpansion ce" ++
      "\n              ON ce.card_name = q.card_name" ++
      "\n             AND ce.expansion = q.expansion" ++
      "\n             AND ce.number = q.number" ++
      "\n            ORDER BY q.card_name, q.expansion, q.number" ++
      "\n            LIMIT ? OFFSET ?\n        "
  | counting => ")"

/-- The text of a search within a frame. -/
def Frame.text (f : Frame) (inner : String) : String := f.opening ++ inner ++ f.closing

/-- Height of the condition under which a page is joined with its printings: three
comparisons of columns. -/
def joinedHeight : Nat := chained [columnHeight + 1, columnHeight + 1, columnHeight + 1]

/-- The largest sum of heights in the statement of a search within a frame. The condition
of the page is joined to that of the search. -/
def Frame.depth (f : Frame) (s : Select) : Nat :=
  match f with
  | alone | counting => s.depth 0
  | listing => max (s.depth 0) (max s.testHeight joinedHeight + 1)

/-- Whether a text holds the null character. -/
def holdsNull (s : String) : Bool := s.toList.contains '\x00'

/-- Why a statement with the given text is not taken within a frame, if it is not. -/
def Frame.refusal? (f : Frame) (s : Select) (text : String) : Option StatementRefusal :=
  if statementLimit < (f.text text).utf8ByteSize then some .longStatement
  -- the code of a statement never holds the character, so only the texts are looked at
  else if s.texts.any holdsNull then some .nullCharacter
  else if s.readsMore sourceLimit then some (.manySources sourceLimit)
  else if depthLimit < f.depth s then some (.deepCondition depthLimit)
  else if s.readsMore joinLimit then some (.manyJoins joinLimit)
  else none

end CardArchive
