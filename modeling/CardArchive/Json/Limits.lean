import CardArchive.Failure
import CardArchive.Json.Reader
import CardArchive.Text.Integer

/-!
# What a reader gives up on

A text can be well formed and still not be read: if its lists and objects are nested
deeper than the stack of the reader allows, or if an integer is written with more digits
than are read. The reader goes from left to right, so a text that is malformed before
such a place is refused for that instead.

## What this module delivers

* `Json.Excess`: what is too much for a reader.
* `Json.firstExcess`: the first place of a text with too much.
* `Json.excess?`: whether a reader comes to that place, and how it fails there.
-/

set_option autoImplicit false

namespace CardArchive.Json

/-- What is too much for a reader. -/
inductive Excess where
  | nesting
  | digits (count : Nat)
deriving DecidableEq

/-- How a reader fails on what is too much for it. -/
def Excess.fault : Excess → ReadingFault
  | nesting => .tooNested
  | digits n => .manyDigits n

/-- Number of characters of the number at the start of a text, none if there is none, and
the count of its digits if it is an integer. -/
def numberAt (cs : List Char) : Nat × Nat :=
  match readNumber? ordinary cs with
  | some (.int _, n) => (n, n - (if cs.head? = some '-' then 1 else 0))
  | some (_, n) => (n, 0)
  | none => (0, 0)

/-- The first place of a text with too much, for a reader that reads values of at most
`levels` lists and objects around each other. The scan knows whether it is inside a text,
how many lists and objects are open, and how many characters are read already. -/
def firstExcess (levels : Nat) :
    (inText : Bool) → (opened read position : Nat) → List Char → Option (Excess × Nat)
  | _, _, _, _, [] => none
  | t, d, read + 1, p, _ :: cs => firstExcess levels t d read (p + 1) cs
  | true, d, 0, p, c :: cs =>
    -- what follows a backslash never ends the text
    if c = '\\' then firstExcess levels true d 1 (p + 1) cs
    else firstExcess levels (c != '"') d 0 (p + 1) cs
  | false, d, 0, p, c :: cs =>
    if c = '"' then firstExcess levels true d 0 (p + 1) cs
    else if c = '[' || c = '\x7b' then
      if levels ≤ d then some (.nesting, p) else firstExcess levels false (d + 1) 0 (p + 1) cs
    else if c = ']' || c = '\x7d' then firstExcess levels false (d - 1) 0 (p + 1) cs
    else
      let (width, digits) := numberAt (c :: cs)
      if Text.digitLimit < digits then some (.digits digits, p)
      else firstExcess levels false d (width - 1) (p + 1) cs

/-- How the reading of a text fails for what is too much, if the text is well formed up to
there and a value is expected at that place. -/
def excess? (levels : Nat) (cs : List Char) : Option ReadingFault :=
  match firstExcess levels false 0 0 0 cs with
  | none => none
  | some (x, p) =>
    match readRaw ordinary (cs.take p) with
    | .error problem => if problem = ⟨"Expecting value", p⟩ then some x.fault else none
    | .ok _ => none

end CardArchive.Json
