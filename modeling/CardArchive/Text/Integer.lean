import CardArchive.Text.Blank
import CardArchive.Text.Digit

/-!
# Integers in a text

Two readings of a whole number. A card's statistic such as `1+*` or `-1` counts
as the integer it starts with, and as zero if it starts with none. A written
number, in contrast, is the whole text: blanks at its ends, at most one sign and
single underscores between digits are all that may stand beside its digits. No
number is read from more than `digitLimit` digits, leading zeros included.

## What this module delivers

* `digitLimit` and `digitCount`: how many digits a number may be written with.
* `leadingInteger`: the integer that a text starts with, zero if there is none.
* `leadsReadably`: whether that integer has few enough digits.
* `readInteger?`: the integer that is the whole text, and `startDigits`, which tells why
  there is none.
-/

set_option autoImplicit false

namespace CardArchive.Text

/-- The most digits that a number is read from or written with. -/
def digitLimit : Nat := 4300

/-- Number of digits among some characters. -/
def digitCount (cs : List Char) : Nat := cs.countP isDecimal

/-- The integer that a text starts with: an optional hyphen and digits. Without
digits it is zero. -/
def leadingInteger : List Char → Int
  | '-' :: cs => -Int.ofNat (natOfDigits (cs.takeWhile isDecimal))
  | cs => Int.ofNat (natOfDigits (cs.takeWhile isDecimal))

/-- Whether the integer that a text starts with has few enough digits to be read. -/
def leadsReadably : List Char → Bool
  | '-' :: cs => (cs.takeWhile isDecimal).length ≤ digitLimit
  | cs => (cs.takeWhile isDecimal).length ≤ digitLimit

/-- A blank that may stand beside a written number: the four separators
`U+001C` to `U+001F` may not. -/
def isNumberBlank (c : Char) : Bool :=
  isBlank c && !(0x1C ≤ c.toNat && c.toNat ≤ 0x1F)

/-- What may follow the first digit of a number: digits, each after at most one
underscore. -/
def areFurtherDigits : List Char → Bool
  | [] => true
  | '_' :: c :: cs => isDecimal c && areFurtherDigits cs
  | c :: cs => isDecimal c && areFurtherDigits cs

/-- The number written by digits and single underscores between them. Underscores do
not count towards the limit. -/
def readNatural? : List Char → Option Nat
  | [] => none
  | c :: cs =>
    if isDecimal c && areFurtherDigits cs && digitCount (c :: cs) ≤ digitLimit then
      some (natOfDigits (c :: cs.filter (· != '_')))
    else none

/-- The text without the blanks that may stand beside a number. -/
def trimNumber (cs : List Char) : List Char :=
  ((cs.dropWhile isNumberBlank).reverse.dropWhile isNumberBlank).reverse

/-- A written number without its sign. -/
def unsigned : List Char → List Char
  | '-' :: r => r
  | '+' :: r => r
  | r => r

/-- Number of digits that a written number starts with, whatever stands behind them. -/
def startDigits (cs : List Char) : Nat :=
  digitCount ((unsigned (trimNumber cs)).takeWhile fun c => isDecimal c || c == '_')

/-- The integer that is the whole text. -/
def readInteger? (cs : List Char) : Option Int :=
  match trimNumber cs with
  | '-' :: r => (readNatural? r).map fun n => -Int.ofNat n
  | '+' :: r => (readNatural? r).map Int.ofNat
  | r => (readNatural? r).map Int.ofNat

@[simp]
theorem leadingInteger_nil : leadingInteger [] = 0 := rfl

@[simp]
theorem readNatural?_nil : readNatural? [] = none := rfl

end CardArchive.Text
