import CardArchive.Failure

/-!
# Names of published files

A published file is named by letters, digits, underscores, points and hyphens, so
its name never leaves the directory it is stored in. Two points in a row are
refused as well.

## What this module delivers

* `isSafeName`: the names that are accepted.
* `addressBase` and `metaAddress`: where the published files are.
* `fileAddress`: the address of a file.
-/

set_option autoImplicit false

namespace CardArchive

/-- A character of a file name. -/
def isNameChar (c : Char) : Bool :=
  ('a' ≤ c && c ≤ 'z') || ('A' ≤ c && c ≤ 'Z') || ('0' ≤ c && c ≤ '9') || c == '_' || c == '.' ||
    c == '-'

/-- Whether two points stand next to each other. -/
def hasTwoPoints : List Char → Bool
  | '.' :: '.' :: _ => true
  | _ :: cs => hasTwoPoints cs
  | [] => false

/-- Whether a name names a file in the directory itself. -/
def isSafeName (name : String) : Bool :=
  let cs := name.toList
  !cs.isEmpty && !hasTwoPoints cs && cs.all isNameChar

/-- Where the published files are. -/
def addressBase : String := "https://mtgjson.com/api/v5"

/-- Address of the description of the current build. -/
def metaAddress : String := addressBase ++ "/Meta.json"

/-- Name of the stored file of a published name. -/
def storedName (name : String) : String := name ++ ".json"

/-- Address of a published file. -/
def fileAddress (name : String) : Except TransferFault String :=
  if isSafeName name then .ok (addressBase ++ "/" ++ storedName name) else .error (.badName name)

/-- A file has an address exactly if its name is safe. -/
theorem fileAddress_isOk (name : String) : (fileAddress name).isOk = isSafeName name := by
  unfold fileAddress
  split <;> simp_all [Except.isOk, Except.toBool]

end CardArchive
