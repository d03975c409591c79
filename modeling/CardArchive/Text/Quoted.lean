import CardArchive.Text.Printable

/-!
# Quoted texts

A message shows a text between quotation marks so that its ends and its unusual
characters can be seen. The mark is the apostrophe, unless the text holds one
and holds no double quote. The mark, the backslash and the characters that are
not printable are escaped.

## What this module delivers

* `quoteMark`: the mark that encloses a text.
* `escapeChar`: one character inside the marks.
* `quoted`: the whole quoted text.
-/

set_option autoImplicit false

namespace CardArchive.Text

/-- The mark that encloses a text. -/
def quoteMark (cs : List Char) : Char :=
  if cs.contains '\'' && !cs.contains '"' then '"' else '\''

/-- The last `width` digits of `n` in base sixteen. -/
def hexDigits : Nat → Nat → List Char
  | 0, _ => []
  | width + 1, n => hexDigits width (n / 16) ++ [Nat.digitChar (n % 16)]

/-- Escape of a character by its code point, in the shortest of three forms. -/
def escapeCode (n : Nat) : List Char :=
  if n < 0x100 then '\\' :: 'x' :: hexDigits 2 n
  else if n < 0x10000 then '\\' :: 'u' :: hexDigits 4 n
  else '\\' :: 'U' :: hexDigits 8 n

/-- A character as it stands inside the marks `mark`. -/
def escapeChar (mark c : Char) : List Char :=
  if c = mark ∨ c = '\\' then ['\\', c]
  else if c = '\n' then ['\\', 'n']
  else if c = '\r' then ['\\', 'r']
  else if c = '\t' then ['\\', 't']
  else if isPrintable c then [c]
  else escapeCode c.toNat

/-- The text between its marks. -/
def quotedChars (cs : List Char) : List Char :=
  quoteMark cs :: cs.flatMap (escapeChar (quoteMark cs)) ++ [quoteMark cs]

/-- The text between its marks. -/
def quoted (s : String) : String := String.ofList (quotedChars s.toList)

@[simp]
theorem quotedChars_nil : quotedChars [] = ['\'', '\''] := rfl

@[simp]
theorem length_hexDigits (width n : Nat) : (hexDigits width n).length = width := by
  induction width generalizing n with
  | zero => rfl
  | succ w ih => simp [hexDigits, ih]

end CardArchive.Text
