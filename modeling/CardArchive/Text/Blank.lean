/-!
# Blank characters

A blank separates words: it is dropped at both ends of a number or of a
comparison, and no search word may hold one. The set is the one of the character
property *White_Space* together with the four separators `U+001C` to `U+001F`.
The zero-width characters `U+180E`, `U+200B` and `U+FEFF` are not blank.

## What this module delivers

* `isBlank`: the test on one character.
* `dropBlanks`: a text without its leading blanks.
-/

set_option autoImplicit false

namespace CardArchive.Text

/-- Inclusive code point ranges of the blank characters. -/
def blankRanges : List (Nat × Nat) :=
  [(0x09, 0x0D), (0x1C, 0x20), (0x85, 0x85), (0xA0, 0xA0), (0x1680, 0x1680),
   (0x2000, 0x200A), (0x2028, 0x2029), (0x202F, 0x202F), (0x205F, 0x205F),
   (0x3000, 0x3000)]

/-- Membership of a code point in a list of inclusive ranges. -/
def inRanges (ranges : List (Nat × Nat)) (n : Nat) : Bool :=
  ranges.any fun r => r.1 ≤ n && n ≤ r.2

/-- A character that separates words. -/
def isBlank (c : Char) : Bool := inRanges blankRanges c.toNat

/-- The text without its leading blanks. -/
def dropBlanks (cs : List Char) : List Char := cs.dropWhile isBlank

@[simp]
theorem dropBlanks_nil : dropBlanks [] = [] := rfl

end CardArchive.Text
