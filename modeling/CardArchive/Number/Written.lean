import CardArchive.Number.Shortest

/-!
# Written numbers

The forms in which numbers leave the program: a floating point number with its
shortest digits, the text that a stored text column keeps of one, one place after
the point, and whole numbers in groups of three digits.

## What this module delivers

* `Layout`: where plain notation ends and how the other notation looks.
* `shown`: the shortest text of a floating point number.
* `kept`: its text in a text column, fifteen digits at most.
* `tenths`: one place after the point, a half to the even digit.
* `grouped`: a whole number with a comma before each group of three digits.
-/

set_option autoImplicit false

namespace CardArchive.Number

/-- Choices of a notation: numbers whose first digit stands for `10 ^ k` with
`-4 ≤ k < plainBelow` are written without an exponent; the others show a point
after a single digit if `pointAlways`. -/
structure Layout where
  plainBelow : Int
  pointAlways : Bool

/-- Text of the digits in plain notation, always with a point. -/
def plain (digits : List Char) (leading : Int) : List Char :=
  if leading < 0 then
    '0' :: '.' :: List.replicate (-leading - 1).toNat '0' ++ digits
  else if digits.length ≤ leading.toNat + 1 then
    digits ++ List.replicate (leading.toNat + 1 - digits.length) '0' ++ ['.', '0']
  else digits.take (leading.toNat + 1) ++ '.' :: digits.drop (leading.toNat + 1)

/-- Exponent with its sign and at least two digits. -/
def exponentText (e : Int) : List Char :=
  let digits := (Nat.repr e.natAbs).toList
  (if e < 0 then '-' else '+') :: (if digits.length < 2 then '0' :: digits else digits)

/-- Text of the digits with an exponent. -/
def scientific (pointAlways : Bool) (digits : List Char) (leading : Int) : List Char :=
  let body :=
    match digits with
    | [] => []
    | [d] => if pointAlways then [d, '.', '0'] else [d]
    | d :: ds => d :: '.' :: ds
  body ++ 'e' :: exponentText leading

/-- Text of a decimal number in a layout. -/
def Layout.write (layout : Layout) (d : Digits) : List Char :=
  let digits := (Nat.repr d.digits).toList
  let leading := d.exponent + digits.length - 1
  if d.digits = 0 then ['0', '.', '0']
  else if -4 ≤ leading ∧ leading < layout.plainBelow then plain digits leading
  else scientific layout.pointAlways digits leading

/-- The text with a minus sign in front if `negative`. -/
def withSign (negative : Bool) (cs : List Char) : String :=
  String.ofList (if negative then '-' :: cs else cs)

/-- Numbers shown to a reader: plain below `10 ^ 16`. -/
def shownLayout : Layout := ⟨16, false⟩

/-- Numbers kept in a text column: plain below `10 ^ 15`, a point always. -/
def keptLayout : Layout := ⟨15, true⟩

/-- The shortest text of a floating point number. -/
def shown (x : Float) : String :=
  match exact x with
  | .finite negative num den => withSign negative (shownLayout.write (shortest num den))
  | .infinite negative => withSign negative ['i', 'n', 'f']
  | .undefined => "nan"

/-- The text that a text column keeps of a floating point number, `none` for the
one that is no number. Zero loses its sign. -/
def kept (x : Float) : Option String :=
  match exact x with
  | .finite negative num den =>
    some (withSign (negative && num != 0) (keptLayout.write (rounded 15 num den)))
  | .infinite negative => some (withSign negative ['I', 'n', 'f'])
  | .undefined => none

/-- The number with one place after the point, rounded from its exact value; a
half goes to the even digit. -/
def tenths (x : Float) : String :=
  match exact x with
  | .finite negative num den =>
    let n := roundDiv (10 * num) den
    withSign negative ((Nat.repr (n / 10)).toList ++ '.' :: (Nat.repr (n % 10)).toList)
  | .infinite negative => withSign negative ['i', 'n', 'f']
  | .undefined => "nan"

/-- Digits in reverse order, with a comma after each three that more follow. -/
def groupReversed : List Char → List Char
  | a :: b :: c :: d :: ds => a :: b :: c :: ',' :: groupReversed (d :: ds)
  | ds => ds

/-- The digits with a comma before each group of three. -/
def groupDigits (ds : List Char) : List Char := (groupReversed ds.reverse).reverse

/-- A whole number with a comma before each group of three digits. -/
def grouped (n : Int) : String :=
  withSign (n < 0) (groupDigits (Nat.repr n.natAbs).toList)

/-- A floating point number in its shortest text, its whole part in groups of
three digits. -/
def groupedShown (x : Float) : String :=
  let cs := (shown x).toList
  let sign := cs.takeWhile (· == '-')
  let rest := cs.drop sign.length
  let whole := rest.takeWhile fun c => c.isDigit
  let tail := rest.drop whole.length
  String.ofList (sign ++ groupDigits whole ++ tail)

end CardArchive.Number
