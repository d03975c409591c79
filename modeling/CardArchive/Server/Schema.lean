import CardArchive.Value.Same

/-!
# Schemas of tool arguments

A tool says by a schema which arguments it takes. The schema is shown to callers
as a value, and arguments are checked against it before a tool is called from
outside.

## What this module delivers

* `Schema`: texts, integers, truth values, lists and objects.
* `Schema.toValue`: the schema as it is shown.
* `Schema.accepts`: whether a value fits.
-/

set_option autoImplicit false

namespace CardArchive

/-- The arguments that a tool takes. A text can be limited to some choices and an
integer to a range. -/
inductive Schema where
  | text (choices : List String) (description : Option String) (fallback : Option String)
  | integer (low high : Option Int) (description : Option String) (fallback : Option Int)
  | boolean (description : Option String) (fallback : Option Bool)
  | list (items : Schema)
  | object (fields : List (String × Schema)) (required : List String)

namespace Schema

/-- A field that is shown only if it is there. -/
def shownIf {α : Type} (name : String) (toValue : α → Value) : Option α → List (String × Value)
  | some a => [(name, toValue a)]
  | none => []

/-- A list of texts as a value. -/
def texts (xs : List String) : Value := .list (xs.map Value.text)

mutual

/-- The schema as it is shown. -/
def toValue : Schema → Value
  | text choices description fallback =>
    .object ([("type", .text "string")] ++
      (if choices.isEmpty then [] else [("enum", texts choices)]) ++
      shownIf "description" .text description ++ shownIf "default" .text fallback)
  | integer low high description fallback =>
    .object ([("type", .text "integer")] ++ shownIf "description" .text description ++
      shownIf "default" .int fallback ++ shownIf "minimum" .int low ++
      shownIf "maximum" .int high)
  | boolean description fallback =>
    .object ([("type", .text "boolean")] ++ shownIf "description" .text description ++
      shownIf "default" .bool fallback)
  | list items => .object [("type", .text "array"), ("items", toValue items)]
  | object fields required =>
    .object ([("type", .text "object"), ("properties", .object (fieldValues fields))] ++
      (if required.isEmpty then [] else [("required", texts required)]))

/-- The schemas of the fields as they are shown. -/
def fieldValues : List (String × Schema) → List (String × Value)
  | [] => []
  | (name, s) :: rest => (name, toValue s) :: fieldValues rest

end

/-- The whole number that a value is, also if it is written with a fraction of
zero. A truth value is no number. -/
def wholeNumber? : Value → Option Int
  | .int n => some n
  | .float x =>
    match Number.exact x with
    | .finite negative num den =>
      if num % den = 0 then some (Value.signedNat negative (num / den)) else none
    | _ => none
  | _ => none

/-- Whether a number lies in a range whose ends may be open. -/
def inRange (low high : Option Int) (n : Int) : Bool :=
  low.all (fun l => l ≤ n) && high.all (fun h => n ≤ h)

mutual

/-- Whether a value fits the schema. -/
def accepts : Schema → Value → Bool
  | text choices _ _, .text s => choices.isEmpty || choices.contains s
  | integer low high _ _, v => (wholeNumber? v).any (inRange low high)
  | boolean _ _, .bool _ => true
  | list items, .list vs => vs.all fun v => accepts items v
  | object fields required, .object fs =>
    required.all (fun name => (Value.lookup name fs).isSome) && acceptsFields fields fs
  | _, _ => false

/-- Whether the fields that are given fit their schemas. -/
def acceptsFields : List (String × Schema) → List (String × Value) → Bool
  | [], _ => true
  | (name, s) :: rest, fs =>
    (match Value.lookup name fs with
      | some v => accepts s v
      | none => true) && acceptsFields rest fs

end

end Schema

end CardArchive
