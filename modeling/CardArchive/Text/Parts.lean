/-!
# Parts of a text

A text is cut wherever a separator occurs, from left to right and without
overlap.

## What this module delivers

* `partsBetween`: the parts of a text between the separators.
-/

set_option autoImplicit false

namespace CardArchive.Text

/-- The parts of a text between separators. `skip` characters of a separator are
still to be passed over, and `current` holds the part read so far, in reverse
order. -/
def partsFrom (separator : List Char) : Nat → List Char → List Char → List (List Char)
  | _, current, [] => [current.reverse]
  | skip + 1, current, _ :: cs => partsFrom separator skip current cs
  | 0, current, c :: cs =>
    if separator.isPrefixOf (c :: cs) then
      current.reverse :: partsFrom separator (separator.length - 1) [] cs
    else partsFrom separator 0 (c :: current) cs

/-- The parts of a text between the separators. -/
def partsBetween (separator s : String) : List String :=
  (partsFrom separator.toList 0 [] s.toList).map String.ofList

end CardArchive.Text
