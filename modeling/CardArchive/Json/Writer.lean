import CardArchive.Value.Basic

/-!
# Writing JSON

One line of JSON text: a blank after each comma and colon, and every character
outside the printable ASCII range escaped by its units of sixteen bits.

## What this module delivers

* `escape`: a text without its quotation marks.
* `write`: the text of a value.
-/

set_option autoImplicit false

namespace CardArchive.Json

/-- Escape of a unit of sixteen bits. -/
def escapeUnit (n : Nat) : List Char := '\\' :: 'u' :: Text.hexDigits 4 n

/-- A character inside a text. -/
def escapeChar (c : Char) : List Char :=
  if c = '"' ∨ c = '\\' then ['\\', c]
  else if c = '\n' then ['\\', 'n']
  else if c = '\r' then ['\\', 'r']
  else if c = '\t' then ['\\', 't']
  else if c = '\x08' then ['\\', 'b']
  else if c = '\x0c' then ['\\', 'f']
  else if 32 ≤ c.toNat ∧ c.toNat < 127 then [c]
  else if c.toNat < 0x10000 then escapeUnit c.toNat
  else
    let n := c.toNat - 0x10000
    escapeUnit (0xD800 + n / 0x400) ++ escapeUnit (0xDC00 + n % 0x400)

/-- A text between its quotation marks. -/
def escape (s : String) : String :=
  String.ofList ('"' :: s.toList.flatMap escapeChar ++ ['"'])

/-- A floating point number; those that are no numbers have names. -/
def writeFloat (x : Float) : String :=
  match Number.exact x with
  | .finite _ _ _ => Number.shown x
  | .infinite negative => if negative then "-Infinity" else "Infinity"
  | .undefined => "NaN"

mutual

/-- The text of a value. -/
def write : Value → String
  | .null => "null"
  | .bool b => if b then "true" else "false"
  | .int n => toString n
  | .float x => writeFloat x
  | .decimal d => d.text
  | .text s => escape s
  | .list xs => "[" ++ ", ".intercalate (writeItems xs) ++ "]"
  | .object fs => "\x7b" ++ ", ".intercalate (writeFields fs) ++ "\x7d"

/-- The texts of the items of a list. -/
def writeItems : List Value → List String
  | [] => []
  | v :: rest => write v :: writeItems rest

/-- The texts of the fields of an object. -/
def writeFields : List (String × Value) → List String
  | [] => []
  | (k, v) :: rest => (escape k ++ ": " ++ write v) :: writeFields rest

end

end CardArchive.Json
