import CardArchive.Number.Written
import CardArchive.Text.Quoted

/-!
# Values

Set files, tool arguments and the download record are trees of values: null,
truth values, numbers, texts, lists and objects with named fields. Numbers
written with a point arrive either as floating point numbers or, from streamed
files, as decimals.

## What this module delivers

* `Value`: the tree.
* `Value.kind`: the name of a value's kind in messages.
* `Value.truthy`: whether a value counts as given; null, zero and everything
  empty do not.
* `Value.field?`: a field of an object.
* `Value.ofFields`: an object in which the last value of a name stands at the
  place of its first.
* `Value.quoted` and `Value.shown`: a value in a message, and as a text.
-/

set_option autoImplicit false

namespace CardArchive

open Number (Decimal)

/-- A tree of data. -/
inductive Value where
  | null
  | bool (b : Bool)
  | int (n : Int)
  | float (x : Float)
  | decimal (d : Decimal)
  | text (s : String)
  | list (items : List Value)
  | object (fields : List (String × Value))
deriving Inhabited

namespace Value

/-- Name of a value's kind in messages. -/
def kind : Value → String
  | null => "NoneType"
  | bool _ => "bool"
  | int _ => "int"
  | float _ => "float"
  | decimal _ => "decimal.Decimal"
  | text _ => "str"
  | list _ => "list"
  | object _ => "dict"

/-- Whether a value counts as given. -/
def truthy : Value → Bool
  | null => false
  | bool b => b
  | int n => n != 0
  | float x =>
    match Number.exact x with
    | .finite _ num _ => num != 0
    | _ => true
  | decimal d => d.coefficient != 0
  | text s => s != ""
  | list xs => !xs.isEmpty
  | object fs => !fs.isEmpty

/-- The value if it counts as given, else the other one. -/
def orElse (v w : Value) : Value := if v.truthy then v else w

/-- Value of a name in a list of fields. -/
def lookup (name : String) : List (String × Value) → Option Value
  | [] => none
  | (k, v) :: rest => if k = name then some v else lookup name rest

/-- Field of an object; every other value has none. -/
def field? (name : String) : Value → Option Value
  | object fs => lookup name fs
  | _ => none

/-- The fields with the value of `name` replaced where it stands, or added at the
end. -/
def setField (name : String) (v : Value) : List (String × Value) → List (String × Value)
  | [] => [(name, v)]
  | (k, w) :: rest => if k = name then (name, v) :: rest else (k, w) :: setField name v rest

/-- The object with the given fields; a repeated name keeps its first place and
takes its last value. -/
def ofFields (fs : List (String × Value)) : Value :=
  object (fs.foldl (fun acc f => setField f.1 f.2 acc) [])

/-- Whether a value is missing. -/
def isNull : Value → Bool
  | null => true
  | _ => false

/-- Whether a value is an object. -/
def isObject : Value → Bool
  | object _ => true
  | _ => false

mutual

/-- A value in a message; texts stand in quotation marks. -/
def quoted : Value → String
  | null => "None"
  | bool b => if b then "True" else "False"
  | int n => toString n
  | float x => Number.shown x
  | decimal d => "Decimal('" ++ d.text ++ "')"
  | text s => Text.quoted s
  | list xs => "[" ++ ", ".intercalate (quotedItems xs) ++ "]"
  | object fs => "\x7b" ++ ", ".intercalate (quotedFields fs) ++ "\x7d"

/-- The items of a list in a message. -/
def quotedItems : List Value → List String
  | [] => []
  | v :: rest => quoted v :: quotedItems rest

/-- The fields of an object in a message. -/
def quotedFields : List (String × Value) → List String
  | [] => []
  | (k, v) :: rest => (Text.quoted k ++ ": " ++ quoted v) :: quotedFields rest

end

/-- A value as a text: a text stands for itself and a decimal is bare. -/
def shown : Value → String
  | text s => s
  | decimal d => d.text
  | v => v.quoted

@[simp]
theorem lookup_nil (name : String) : lookup name [] = none := rfl

@[simp]
theorem field?_object (name : String) (fs : List (String × Value)) :
    (object fs).field? name = lookup name fs := rfl

@[simp]
theorem shown_text (s : String) : (text s).shown = s := rfl

/-- A field just set is found. -/
@[simp]
theorem lookup_setField_self (name : String) (v : Value) (fs : List (String × Value)) :
    lookup name (setField name v fs) = some v := by
  induction fs with
  | nil => simp [setField, lookup]
  | cons f rest ih =>
    obtain ⟨k, w⟩ := f
    by_cases h : k = name <;> simp [setField, lookup, h, ih]

/-- Setting a field leaves the others as they were. -/
theorem lookup_setField_ne {name other : String} (h : other ≠ name) (v : Value)
    (fs : List (String × Value)) :
    lookup other (setField name v fs) = lookup other fs := by
  induction fs with
  | nil => simp [setField, lookup, Ne.symm h]
  | cons f rest ih =>
    obtain ⟨k, w⟩ := f
    by_cases hk : k = name
    · subst hk; simp [setField, lookup, Ne.symm h]
    · by_cases ho : k = other <;> simp [setField, lookup, hk, ho, ih, h]

end Value

end CardArchive
