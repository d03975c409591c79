import CardArchive.Value.Basic

/-!
# Reading JSON

A reader of JSON text that names what it expected and where. It comes in two
styles: the ordinary one, which gives floating point numbers and also accepts the
names of the numbers that are none, and the strict one for large files, which
keeps decimals and allows two more blank characters. A repeated name stays
repeated in what is read; `settle` then keeps the last value of each name.

## What this module delivers

* `Style`: the choices of a reader, with the styles `ordinary` and `strict`.
* `Problem` and `Problem.message`: what was expected at which place.
* `readRaw`: the tree of a text, repeated names included.
* `Value.settle` and `readText`: the tree with each name once.
-/

set_option autoImplicit false

namespace CardArchive

mutual

/-- The tree in which each object has every name once, with its last value. -/
def Value.settle : Value → Value
  | .list xs => .list (settleItems xs)
  | .object fs => .ofFields (settleFields fs)
  | .null => .null
  | .bool b => .bool b
  | .int n => .int n
  | .float x => .float x
  | .decimal d => .decimal d
  | .text s => .text s

/-- The items of a list, settled. -/
def Value.settleItems : List Value → List Value
  | [] => []
  | v :: rest => v.settle :: settleItems rest

/-- The values of the fields, settled. -/
def Value.settleFields : List (String × Value) → List (String × Value)
  | [] => []
  | (k, v) :: rest => (k, v.settle) :: settleFields rest

end

namespace Json

open Number (Decimal)

/-- Choices of a reader. -/
structure Style where
  isSpace : Char → Bool
  namesNonNumbers : Bool
  fractional : Decimal → Value

/-- The four blanks of JSON text. -/
def isSpace (c : Char) : Bool := c == ' ' || c == '\t' || c == '\n' || c == '\r'

/-- The style of records and messages. -/
def ordinary : Style := ⟨isSpace, true, fun d => .float d.toFloat⟩

/-- The style of large files: numbers keep their decimals, and the vertical tab
and the form feed are blank as well. -/
def strict : Style := ⟨fun c => isSpace c || c == '\x0b' || c == '\x0c', false, .decimal⟩

/-- What was expected, and the number of characters before it. -/
structure Problem where
  reason : String
  position : Nat
deriving DecidableEq

/-- The rest of a text and the number of characters before it. -/
structure Cursor where
  rest : List Char
  position : Nat

/-- The cursor after the blanks of a style. -/
def skipSpace (style : Style) : List Char → Nat → Cursor
  | [], p => ⟨[], p⟩
  | c :: cs, p => if style.isSpace c then skipSpace style cs (p + 1) else ⟨c :: cs, p⟩

/-- The cursor without leading blanks. -/
def Cursor.skip (style : Style) (c : Cursor) : Cursor := skipSpace style c.rest c.position

/-! ## Texts -/

/-- Value of a digit in base sixteen. -/
def hexValue? (c : Char) : Option Nat :=
  if '0' ≤ c ∧ c ≤ '9' then some (c.toNat - 48)
  else if 'a' ≤ c ∧ c ≤ 'f' then some (c.toNat - 87)
  else if 'A' ≤ c ∧ c ≤ 'F' then some (c.toNat - 55)
  else none

/-- The number written by four digits in base sixteen. -/
def hex4? (a b c d : Char) : Option Nat := do
  let a ← hexValue? a
  let b ← hexValue? b
  let c ← hexValue? c
  let d ← hexValue? d
  pure (((a * 16 + b) * 16 + c) * 16 + d)

/-- The character of a one-letter escape. -/
def escaped? : Char → Option Char
  | '"' => some '"'
  | '\\' => some '\\'
  | '/' => some '/'
  | 'b' => some '\x08'
  | 'f' => some '\x0c'
  | 'n' => some '\n'
  | 'r' => some '\r'
  | 't' => some '\t'
  | _ => none

/-- The code points of a text that was opened at `start`, up to its closing
quotation mark; `codes` holds those already read, in reverse order. -/
def textBody (start : Nat) : List Char → Nat → List Nat → Except Problem (List Nat × Cursor)
  | [], _, _ => .error ⟨"Unterminated string starting at", start⟩
  | '"' :: cs, p, codes => .ok (codes.reverse, ⟨cs, p + 1⟩)
  | ['\\'], _, _ => .error ⟨"Unterminated string starting at", start⟩
  | '\\' :: 'u' :: a :: b :: c :: d :: e :: cs, p, codes =>
    match hex4? a b c d with
    | some n => textBody start (e :: cs) (p + 6) (n :: codes)
    | none => .error ⟨"Invalid \\uXXXX escape", p + 1⟩
  | '\\' :: 'u' :: _, p, _ => .error ⟨"Invalid \\uXXXX escape", p + 1⟩
  | '\\' :: c :: cs, p, codes =>
    match escaped? c with
    | some e => textBody start cs (p + 2) (e.toNat :: codes)
    | none => .error ⟨"Invalid \\escape", p⟩
  | c :: cs, p, codes =>
    if c.toNat < 32 then .error ⟨"Invalid control character at", p⟩
    else textBody start cs (p + 1) (c.toNat :: codes)

/-- The first of the two units that write a character beyond `U+FFFF`. -/
def isHighHalf (n : Nat) : Bool := 0xD800 ≤ n && n < 0xDC00

/-- The second of the two units that write a character beyond `U+FFFF`. -/
def isLowHalf (n : Nat) : Bool := 0xDC00 ≤ n && n < 0xE000

/-- The character of a code point. A half that stands alone is no character and is
replaced, so texts that differ in such halves only are read as equal. -/
def charOfCode (n : Nat) : Char :=
  if isHighHalf n || isLowHalf n then '\uFFFD' else Char.ofNat n

/-- The characters of code points in which two adjacent halves are one. -/
def joinHalves : List Nat → List Char
  | h :: l :: rest =>
    if isHighHalf h && isLowHalf l then
      Char.ofNat (0x10000 + (h - 0xD800) * 0x400 + (l - 0xDC00)) :: joinHalves rest
    else charOfCode h :: joinHalves (l :: rest)
  | [h] => [charOfCode h]
  | [] => []

/-- The text whose opening quotation mark was just read. -/
def readString (cs : List Char) (p : Nat) : Except Problem (String × Cursor) := do
  let (codes, next) ← textBody (p - 1) cs p []
  pure (String.ofList (joinHalves codes), next)

/-! ## Numbers -/

/-- The digits of base ten at the start of a text. -/
def digitsOf (cs : List Char) : List Char := cs.takeWhile fun c => c.isDigit

/-- The number that digits write. -/
def digitsValue (cs : List Char) : Nat := cs.foldl (fun n c => 10 * n + (c.toNat - 48)) 0

/-- The whole part of a number: a zero alone, or digits that start with none. -/
def wholePart : List Char → List Char
  | '0' :: _ => ['0']
  | cs => digitsOf cs

/-- The digits after a point, if there are any. -/
def fractionPart : List Char → List Char
  | '.' :: cs => digitsOf cs
  | _ => []

/-- The sign and the digits of an exponent, if it is complete. -/
def exponentPart? (cs : List Char) : Option (Bool × Nat × List Char) :=
  match cs with
  | e :: rest =>
    if e == 'e' || e == 'E' then
      let (negative, width, digits) :=
        match rest with
        | '-' :: r => (true, 2, digitsOf r)
        | '+' :: r => (false, 2, digitsOf r)
        | r => (false, 1, digitsOf r)
      if digits.isEmpty then none else some (negative, width, digits)
    else none
  | [] => none

/-- The number at the start of a text, with the count of its characters. -/
def readNumber? (style : Style) (cs : List Char) : Option (Value × Nat) :=
  let (negative, body) :=
    match cs with
    | '-' :: r => (true, r)
    | r => (false, r)
  let whole := wholePart body
  if whole.isEmpty then none
  else
    let afterWhole := body.drop whole.length
    let fraction := fractionPart afterWhole
    let fractionWidth := if fraction.isEmpty then 0 else fraction.length + 1
    let exponent := exponentPart? (afterWhole.drop fractionWidth)
    let exponentWidth := match exponent with
      | some (_, width, digits) => width + digits.length
      | none => 0
    let count := (if negative then 1 else 0) + whole.length + fractionWidth + exponentWidth
    if fractionWidth + exponentWidth = 0 then
      let n := Int.ofNat (digitsValue whole)
      some (.int (if negative then -n else n), count)
    else
      let power : Int := match exponent with
        | some (true, _, digits) => -Int.ofNat (digitsValue digits)
        | some (false, _, digits) => Int.ofNat (digitsValue digits)
        | none => 0
      some (style.fractional ⟨negative, digitsValue (whole ++ fraction),
        power - fraction.length⟩, count)

/-- The words that stand for a value. -/
def words (style : Style) : List (List Char × Value) :=
  [(['n', 'u', 'l', 'l'], .null), (['t', 'r', 'u', 'e'], .bool true),
   (['f', 'a', 'l', 's', 'e'], .bool false)] ++
  if style.namesNonNumbers then
    [(['N', 'a', 'N'], .float Number.undefinedFloat),
     (['I', 'n', 'f', 'i', 'n', 'i', 't', 'y'], .float (Number.infinity false)),
     (['-', 'I', 'n', 'f', 'i', 'n', 'i', 't', 'y'], .float (Number.infinity true))]
  else []

/-- A word or a number at the cursor. -/
def readScalar (style : Style) (cs : List Char) (p : Nat) : Except Problem (Value × Cursor) :=
  match (words style).find? fun w => w.1.isPrefixOf cs with
  | some (w, v) => .ok (v, ⟨cs.drop w.length, p + w.length⟩)
  | none =>
    match readNumber? style cs with
    | some (v, n) => .ok (v, ⟨cs.drop n, p + n⟩)
    | none => .error ⟨"Expecting value", p⟩

/-! ## Trees -/

mutual

/-- The value at the cursor; `fuel` bounds the nesting and the number of items
and is never used up, since every step takes a character. -/
def readValue (style : Style) : Nat → Cursor → Except Problem (Value × Cursor)
  | 0, c => .error ⟨"Expecting value", c.position⟩
  | _ + 1, ⟨'"' :: cs, p⟩ => do
    let (s, next) ← readString cs (p + 1)
    pure (.text s, next)
  | fuel + 1, ⟨'[' :: cs, p⟩ =>
    match skipSpace style cs (p + 1) with
    | ⟨']' :: rest, q⟩ => pure (.list [], ⟨rest, q + 1⟩)
    | next => do
      let (items, after) ← readItems style fuel next
      pure (.list items, after)
  | fuel + 1, ⟨'\x7b' :: cs, p⟩ =>
    match skipSpace style cs (p + 1) with
    | ⟨'\x7d' :: rest, q⟩ => pure (.object [], ⟨rest, q + 1⟩)
    | next => do
      let (fields, after) ← readFields style fuel next
      pure (.object fields, after)
  | _ + 1, ⟨cs, p⟩ => readScalar style cs p

/-- The items of a list from the cursor on, up to the closing bracket. -/
def readItems (style : Style) : Nat → Cursor → Except Problem (List Value × Cursor)
  | 0, c => .error ⟨"Expecting value", c.position⟩
  | fuel + 1, c => do
    let (v, next) ← readValue style fuel c
    match next.skip style with
    | ⟨']' :: cs, p⟩ => pure ([v], ⟨cs, p + 1⟩)
    | ⟨',' :: cs, p⟩ =>
      let (vs, after) ← readItems style fuel (skipSpace style cs (p + 1))
      pure (v :: vs, after)
    | ⟨_, p⟩ => .error ⟨"Expecting ',' delimiter", p⟩

/-- The fields of an object from the cursor on, up to the closing brace. -/
def readFields (style : Style) : Nat → Cursor → Except Problem (List (String × Value) × Cursor)
  | 0, c => .error ⟨"Expecting value", c.position⟩
  | fuel + 1, ⟨'"' :: cs, p⟩ => do
    let (name, next) ← readString cs (p + 1)
    match next.skip style with
    | ⟨':' :: cs, p⟩ =>
      let (v, next) ← readValue style fuel (skipSpace style cs (p + 1))
      match next.skip style with
      | ⟨'\x7d' :: cs, p⟩ => pure ([(name, v)], ⟨cs, p + 1⟩)
      | ⟨',' :: cs, p⟩ =>
        let (fields, after) ← readFields style fuel (skipSpace style cs (p + 1))
        pure ((name, v) :: fields, after)
      | ⟨_, p⟩ => .error ⟨"Expecting ',' delimiter", p⟩
    | ⟨_, p⟩ => .error ⟨"Expecting ':' delimiter", p⟩
  | _ + 1, ⟨_, p⟩ =>
    .error ⟨"Expecting property name enclosed in double quotes", p⟩

end

/-- The tree of a whole text, repeated names included. -/
def readRaw (style : Style) (cs : List Char) : Except Problem Value := do
  -- a value and its list of items each take a unit of fuel for a character
  let (v, next) ← readValue style (2 * cs.length + 2) (skipSpace style cs 0)
  match next.skip style with
  | ⟨[], _⟩ => pure v
  | ⟨_, p⟩ => .error ⟨"Extra data", p⟩

/-- The tree of a whole text in the ordinary style, each name once. -/
def readText (s : String) : Except Problem Value :=
  (readRaw ordinary s.toList).map Value.settle

/-- Wording of a problem in the text: what was expected, and the line and column
of its place, counted from one. -/
def Problem.message (problem : Problem) (cs : List Char) : String :=
  let before := cs.take problem.position
  let line := before.count '\n' + 1
  let column := (before.reverse.takeWhile (· != '\n')).length + 1
  problem.reason ++ ": line " ++ toString line ++ " column " ++ toString column ++
    " (char " ++ toString problem.position ++ ")"

end Json

end CardArchive
