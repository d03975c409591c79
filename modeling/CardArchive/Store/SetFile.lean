import CardArchive.Json.Reader
import CardArchive.Store.Database

/-!
# Files of sets

A file holds one set or many. The sets stand under the name `data`, or bare: a
single set is then the whole file, and many sets are its fields. Some sets do not
fit the tables and are passed over. A file is read before any of its sets is taken in, so
a malformed one brings none: how far a reader that takes sets from a stream gets depends
on the size of its buffer.

## What this module delivers

* `SetFile.single`: the set of a file that holds one.
* `SetFile.sets`: the sets of a file that holds many, with their codes.
* `Database.importSets`: the sets taken in one after the other, with the counts
  after each of them.
-/

set_option autoImplicit false

namespace CardArchive

namespace SetFile

/-- The tree of a file; a repeated name is kept. -/
def tree (content : String) : Except Failure Value :=
  match Json.readRaw Json.strict content.toList with
  | .ok v => .ok v
  | .error _ => .error (.reading .malformedStream)

/-- The fields of an object, none of another value. -/
def fieldsOf : Value → List (String × Value)
  | .object fs => fs
  | _ => []

/-- The name under which sets are wrapped. -/
def wrapper : String := "data"

/-- Every value that the tree wraps. -/
def wrapped (tree : Value) : List Value :=
  ((fieldsOf tree).filter fun f => f.1 == wrapper).map Prod.snd

/-- The set of a file that holds one; `path` names the file in the error. -/
def single (path content : String) : Except Failure Value := do
  let tree ← tree content
  match wrapped tree with
  | v :: _ => pure v.settle
  | [] =>
    if tree.isObject then pure tree.settle
    else throw (.ingest (.noSetObject path))

/-- The name of what a file says about itself. -/
def about : String := "meta"

/-- The sets of a file that holds many, with their codes, in order. A code that
stands twice counts twice. -/
def sets (content : String) : Except Failure (List (String × Value)) := do
  let tree ← tree content
  let inside := (wrapped tree).flatMap fieldsOf
  let bare := (fieldsOf tree).filter fun f => f.1 != about && f.2.isObject
  -- an empty wrapper counts as none, and is then one of the bare fields itself
  let found := if inside.isEmpty then bare else inside
  pure (found.map fun f => (f.1, f.2.settle))

end SetFile

/-- Codes of the sets whose cards do not fit the tables. -/
def unsupportedCodes : List String := ["UNH", "UGL", "UST", "PCEL"]

/-- Whether a code is that of a set which is passed over. -/
def isUnsupported (code : String) : Bool := unsupportedCodes.contains (Text.upper code)

/-- Whether a set is passed over, for the code it is listed under or for its own. -/
def isPassedOver (code : String) (set : Value) : Except Failure Bool :=
  if isUnsupported code then .ok true
  else (shaped (set.memberOr "code" (.text ""))).map fun own => isUnsupported own.shown

/-- What taking in several sets comes to: the database, the counts of sets and
printings after each set, and the number of new printings. -/
structure ImportRun where
  database : Database
  progress : List (Nat × Nat)
  result : Except Failure Nat

namespace Database

/-- The database with some sets, up to the first one that fails, after `sets` sets
with `printings` new printings. -/
def importFrom (db : Database) (sets printings : Nat) : List (String × Value) → ImportRun
  | [] => ⟨db, [], .ok printings⟩
  | (code, set) :: rest =>
    match isPassedOver code set with
    | .error e => ⟨db, [], .error e⟩
    | .ok true => importFrom db sets printings rest
    | .ok false =>
      match db.insertSet set with
      | (db, .error e) => ⟨db, [], .error e⟩
      | (db, .ok n) =>
        let run := importFrom db (sets + 1) (printings + n) rest
        { run with progress := (sets + 1, printings + n) :: run.progress }

/-- The database with the sets of a file that holds many. -/
def importSets (db : Database) (content : String) : ImportRun :=
  match SetFile.sets content with
  | .error e => ⟨db, [], .error e⟩
  | .ok sets => db.importFrom 0 0 sets

/-- The database with the set of a file that holds one. -/
def importSet (db : Database) (path content : String) : Database × Except Failure Nat :=
  match SetFile.single path content with
  | .error e => (db, .error e)
  | .ok set => db.insertSet set

@[simp]
theorem importFrom_nil (db : Database) (sets printings : Nat) :
    db.importFrom sets printings [] = ⟨db, [], .ok printings⟩ := rfl

end Database

end CardArchive
