import CardArchive.Failure
import CardArchive.Text.Integer
import CardArchive.Value.Same

/-!
# Access to values

The operations that need a value of a certain shape. Each one says by a
`ShapeFault` what was wrong with the value it got.

## What this module delivers

* `Value.memberOf`: a field by name where a missing one is null.
* `Value.item`: a field by name where a missing one is a fault.
* `Value.holds`: whether a name is a field, an item or a part of a value.
* `Value.elements`: the items of a list, the characters of a text, the names of
  an object.
* `Value.toInteger`: the whole number that a value stands for.
* `Value.checkHashable`: a list or an object can not be looked up.
-/

set_option autoImplicit false

namespace CardArchive.Value

open Text (readInteger?)

/-- Whether `part` occurs in the text without a gap. -/
def occursIn (part : List Char) : List Char → Bool
  | [] => part.isEmpty
  | c :: cs => part.isPrefixOf (c :: cs) || occursIn part cs

/-- The field `name` of an object, `fallback` if it has none. Only an object has
fields. -/
def memberOr (v : Value) (name : String) (fallback : Value) : Except ShapeFault Value :=
  match v with
  | object fs => .ok ((lookup name fs).getD fallback)
  | _ => .error (.noMember v.kind "get")

/-- The field `name` of an object, null if it has none. -/
def memberOf (v : Value) (name : String) : Except ShapeFault Value := v.memberOr name null

/-- The field `name` of an object that must have it. -/
def item (v : Value) (name : String) : Except ShapeFault Value :=
  match v with
  | object fs =>
    match lookup name fs with
    | some w => .ok w
    | none => .error (.missingKey (Text.quoted name))
  | text _ => .error .textIndex
  | list _ => .error .listIndex
  | _ => .error (.notIndexable v.kind)

/-- Whether `name` is a field of an object, an item of a list or a part of a
text. -/
def holds (v : Value) (name : String) : Except ShapeFault Bool :=
  match v with
  | object fs => .ok (lookup name fs).isSome
  | list xs => .ok (xs.any fun x => same x (text name))
  | text s => .ok (occursIn name.toList s.toList)
  | _ => .error (.notContainer v.kind)

/-- The items of a list, the characters of a text or the names of an object. -/
def elements (v : Value) : Except ShapeFault (List Value) :=
  match v with
  | list xs => .ok xs
  | text s => .ok (s.toList.map fun c => text (String.singleton c))
  | object fs => .ok (fs.map fun f => text f.1)
  | _ => .error (.notIterable v.kind)

/-- Number of characters of a refused text that a message shows. -/
def shownCharacters : Nat := 200

/-- The whole number that a value stands for; a fraction is cut off. -/
def toInteger (v : Value) : Except ShapeFault Int :=
  match v with
  | bool b => .ok (if b then 1 else 0)
  | int n => .ok n
  | float x =>
    match Number.exact x with
    | .finite negative num den => .ok (signedNat negative (num / den))
    | .infinite _ => .error .infiniteInteger
    | .undefined => .error .undefinedInteger
  | decimal d => .ok d.truncate
  | text s =>
    match readInteger? s.toList with
    | some n => .ok n
    | none =>
      let digits := Text.startDigits s.toList
      .error (if Text.digitLimit < digits then .manyDigits digits
        else .notInteger (String.ofList ((Text.quotedChars s.toList).take shownCharacters)))
  | _ => .error (.notConvertible v.kind)

/-- The text, of a value that must be one, for the operation `member`. -/
def textFor (v : Value) (member : String) : Except ShapeFault String :=
  match v with
  | text s => .ok s
  | _ => .error (.noMember v.kind member)

/-- Whether a value can be looked up in a set of values. -/
def isHashable : Value → Bool
  | list _ | object _ => false
  | _ => true

/-- Refuses a value that can not be looked up. -/
def checkHashable (v : Value) : Except ShapeFault Unit :=
  if v.isHashable then .ok () else .error (.unhashable v.kind)

@[simp]
theorem memberOf_object (fs : List (String × Value)) (name : String) :
    (object fs).memberOf name = .ok ((lookup name fs).getD null) := rfl

theorem memberOf_of_isObject {v : Value} (h : v.isObject = true) (name : String) :
    ∃ w, v.memberOf name = .ok w := by
  cases v with
  | object fs => exact ⟨_, memberOf_object fs name⟩
  | _ => cases h

theorem memberOr_of_not_isObject {v : Value} (h : v.isObject = false) (name : String)
    (fallback : Value) : v.memberOr name fallback = .error (.noMember v.kind "get") := by
  cases v with
  | object fs => cases h
  | _ => rfl

@[simp]
theorem item_of_lookup {fs : List (String × Value)} {name : String} {v : Value}
    (h : lookup name fs = some v) : (object fs).item name = .ok v := by
  simp [item, h]

@[simp]
theorem textFor_text (s member : String) : (text s).textFor member = .ok s := rfl

@[simp]
theorem elements_list (xs : List Value) : (list xs).elements = .ok xs := rfl

end CardArchive.Value
