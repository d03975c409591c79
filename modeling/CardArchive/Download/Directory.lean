import CardArchive.Text.Order

/-!
# Directories

What stands in one directory, in the order in which it was last written: files whose
bytes are a text, files whose bytes are none, and further directories. A name that is
too long names nothing, and nothing can be stored under it. Where a directory stands,
no file can be stored and none be taken away, the record of the last download included.

## What this module delivers

* `Content` and `Directory`, with `Directory.find?` and `Directory.read?`.
* `Directory.write`, `Directory.remove` and `Directory.obstacle?`, which tells where
  neither is possible.
* `Directory.names`: the names in the directory, in order.
* `Directory.newest?`: the data file that was written last.
-/

set_option autoImplicit false

namespace CardArchive

/-- What stands under a name. -/
inductive Content where
  | text (s : String)
  /-- A file whose bytes are no text. -/
  | bytes (b : List UInt8)
  | folder
deriving DecidableEq

/-- The text of a file, if it is one. -/
def Content.text? : Content → Option String
  | text s => some s
  | _ => none

/-- What stands in a directory, with what was written last at the end. -/
structure Directory where
  entries : List (String × Content)
deriving DecidableEq

/-- What keeps a file from being written or taken away. -/
inductive Obstacle where
  | longName
  | folder
deriving DecidableEq

namespace Directory

/-- The directory without files. -/
def empty : Directory := ⟨[]⟩

/-- The directory with some texts. -/
def ofTexts (texts : List (String × String)) : Directory :=
  ⟨texts.map fun f => (f.1, .text f.2)⟩

/-- Name of the file that holds the record of the last download. -/
def recordName : String := "metadata.json"

/-- Number of bytes that a name may have. -/
def nameLimit : Nat := 255

/-- Whether a name is short enough to name something. -/
def fits (name : String) : Bool := name.utf8ByteSize ≤ nameLimit

/-- What stands under a name. -/
def find? (d : Directory) (name : String) : Option Content :=
  if fits name then (d.entries.find? fun f => f.1 == name).map Prod.snd else none

/-- The text of the file with a name. -/
def read? (d : Directory) (name : String) : Option String := (d.find? name).bind Content.text?

/-- What keeps a file of the given name from being written or taken away, if
anything. -/
def obstacle? (d : Directory) (name : String) : Option Obstacle :=
  if !fits name then some .longName
  else if d.find? name = some .folder then some .folder
  else none

/-- The directory without a file. -/
def remove (d : Directory) (name : String) : Directory :=
  ⟨d.entries.filter fun f => f.1 != name⟩

/-- The directory with a file of the given text. -/
def write (d : Directory) (name content : String) : Directory :=
  ⟨(d.remove name).entries ++ [(name, .text content)]⟩

/-- The names in the directory, in order. -/
def names (d : Directory) : List String := Text.sorted (d.entries.map Prod.fst)

/-- Whether a name is that of a data file. -/
def isDataName (name : String) : Bool := name.endsWith ".json" && name != recordName

/-- The data file that was written last. -/
def newest? (d : Directory) : Option String :=
  ((d.entries.map Prod.fst).filter isDataName).getLast?

theorem fits_recordName : fits recordName = true := by decide

/-! ## Files that change, and files that stay -/

/-- Nothing stands under the name of a removed file. -/
@[simp]
theorem find?_remove_self (d : Directory) (name : String) : (d.remove name).find? name = none := by
  simp [remove, find?]

/-- Removing a file leaves the rest as it was. -/
theorem find?_remove_ne {name other : String} (h : other ≠ name) (d : Directory) :
    (d.remove name).find? other = d.find? other := by
  have hlist : ∀ entries : List (String × Content),
      ((entries.filter fun f => f.1 != name).find? fun f => f.1 == other) =
        entries.find? fun f => f.1 == other := by
    intro entries
    induction entries with
    | nil => rfl
    | cons f rest ih =>
      by_cases hf : f.1 = name
      · have hother : f.1 ≠ other := fun e => h (e ▸ hf)
        rw [List.filter_cons_of_neg (by simp [hf]), List.find?_cons_of_neg (by simp [hother]), ih]
      · rw [List.filter_cons_of_pos (by simp [hf]), List.find?_cons, List.find?_cons, ih]
  rw [find?, find?, remove, hlist]

/-- A file just written holds its text, if its name fits. -/
theorem find?_write_self {name : String} (h : fits name = true) (d : Directory)
    (content : String) : (d.write name content).find? name = some (.text content) := by
  have hremoved : (d.remove name).entries.find? (fun f => f.1 == name) = none := by
    simp [remove]
  simp [write, find?, h, List.find?_append, hremoved]

/-- Writing a file leaves the rest as it was. -/
theorem find?_write_ne {name other : String} (h : other ≠ name) (d : Directory)
    (content : String) : (d.write name content).find? other = d.find? other := by
  rw [← find?_remove_ne h d]
  simp [write, find?, List.find?_append, Ne.symm h]

theorem read?_congr {d d' : Directory} {name : String} (h : d.find? name = d'.find? name) :
    d.read? name = d'.read? name := by
  rw [read?, read?, h]

/-- A file holds a text exactly if it can be read. -/
theorem read?_eq_some {d : Directory} {name content : String} :
    d.read? name = some content ↔ d.find? name = some (.text content) := by
  rw [read?]
  rcases d.find? name with _ | _ | _ | _ <;> simp [Content.text?]

/-- A file just written can be read, if its name fits. -/
theorem read?_write_self {name : String} (h : fits name = true) (d : Directory)
    (content : String) : (d.write name content).read? name = some content := by
  rw [read?, find?_write_self h]
  rfl

/-- Writing a file leaves the others as they were. -/
theorem read?_write_ne {name other : String} (h : other ≠ name) (d : Directory) (content : String) :
    (d.write name content).read? other = d.read? other :=
  read?_congr (find?_write_ne h d content)

/-! ## Obstacles -/

theorem obstacle?_congr {d d' : Directory} {name : String} (h : d.find? name = d'.find? name) :
    d.obstacle? name = d'.obstacle? name := by
  rw [obstacle?, obstacle?, h]

/-- A name without an obstacle fits. -/
theorem fits_of_obstacle?_eq_none {d : Directory} {name : String} (h : d.obstacle? name = none) :
    fits name = true := by
  unfold obstacle? at h
  split at h
  · cases h
  · rename_i hfits
    simpa using hfits

/-- Nothing stands in the way where a file was just written, if its name fits. -/
theorem obstacle?_write_self {name : String} (h : fits name = true) (d : Directory)
    (content : String) : (d.write name content).obstacle? name = none := by
  simp [obstacle?, h, find?_write_self h]

/-- Nothing stands in the way where a file was just removed, if its name fits. -/
theorem obstacle?_remove_self {name : String} (h : fits name = true) (d : Directory) :
    (d.remove name).obstacle? name = none := by
  simp [obstacle?, h]

end Directory

end CardArchive
