import CardArchive.Failure
import CardArchive.Filter.Basic
import CardArchive.Text.Blank

/-!
# Written comparisons

A comparison such as `power>=3` is written as a left side, an operator and a
right side, with blanks allowed around each. The left side holds none of the
characters of operators; the right side is any text without blanks. Of the
operators that fit, the longest one that leaves a right side is meant.

## What this module delivers

* `splitComparison?`: the three parts of a written comparison.
* `parseComparison`: the same, with the error for everything else.
-/

set_option autoImplicit false

namespace CardArchive

open Text (isBlank dropBlanks)

/-- A character that may stand in the left side. -/
def isLeftChar (c : Char) : Bool :=
  !(c == '<' || c == '>' || c == '=' || c == '!' || isBlank c)

/-- The operators in the order in which they are tried: those of two characters
come first. -/
def operatorsTried : List Operator :=
  [.unequal, .greaterEqual, .lessEqual, .equal, .less, .greater]

/-- The text after a given start. -/
def after? (start cs : List Char) : Option (List Char) :=
  if start.isPrefixOf cs then some (cs.drop start.length) else none

/-- The right side, if the text holds exactly one run of characters that are not
blank. -/
def rightSide? (cs : List Char) : Option (List Char) :=
  let body := dropBlanks cs
  let side := body.takeWhile fun c => !isBlank c
  if side.isEmpty then none
  else if (dropBlanks (body.drop side.length)).isEmpty then some side
  else none

/-- The operator at the start of a text and the right side after it. -/
def operatorAndRight? (cs : List Char) : Option (Operator × List Char) :=
  operatorsTried.findSome? fun o => do
    let rest ← after? o.text.toList cs
    let side ← rightSide? rest
    pure (o, side)

/-- The three parts of a written comparison. -/
def splitComparison? (cs : List Char) : Option (List Char × Operator × List Char) :=
  -- a left character is no operator's, so the longest left side is the only one
  let body := dropBlanks cs
  let left := body.takeWhile isLeftChar
  if left.isEmpty then none
  else (operatorAndRight? (dropBlanks (body.drop left.length))).map fun p => (left, p.1, p.2)

/-- The three parts of a written comparison, as texts. -/
def parseComparison (s : String) : Except QueryError (String × Operator × String) :=
  match splitComparison? s.toList with
  | some (l, o, r) => .ok (String.ofList l, o, String.ofList r)
  | none => .error (.badComparison (Text.quoted s))

end CardArchive
