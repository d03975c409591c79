import CardArchive.Download.Transfer
import CardArchive.Json.Writer
import CardArchive.Timestamp.Reader

/-!
# The record of the last download

Next to the data files stands a record of the last download: which file was
fetched and when, the version and date of its build, and how many printings the
last import added. A record that is missing or malformed counts as none. One whose
bytes are no text, or that holds more than the reader takes, is not read at all. A
directory in its place counts as none as well, but no record can be written there.

## What this module delivers

* `Directory.record?`, `Directory.writeRecord`: the record as it is stored.
* `Directory.unreadable?`, `Directory.reading`: what keeps it from being read, and the
  reading.
* `Directory.updateCount`: the record with another number of printings.
* `Transfer.isStale`: whether a newer build is published.
* `Status` and `Transfer.status`: what is known of the data.
-/

set_option autoImplicit false

namespace CardArchive

namespace Directory

/-- The record, if there is one that can be read. -/
def record? (d : Directory) : Option Value :=
  (d.read? recordName).bind fun s =>
    match Json.readText s with
    | .ok v => some v
    | .error _ => none

/-- The record, if there is one that holds something. -/
def given? (d : Directory) : Option Value := d.record?.filter Value.truthy

/-- What keeps the record from being read, where values of at most `levels` lists and
objects around each other are read. -/
def unreadable? (d : Directory) (levels : Nat) : Option ReadingFault :=
  match d.find? recordName with
  | some (.bytes _) => some .undecodable
  | some (.text s) => Json.excess? levels s.toList
  | _ => none

/-- The record, if there is one that holds something. It can be there and not be read. -/
def reading (d : Directory) (levels : Nat) : Except Failure (Option Value) :=
  match d.unreadable? levels with
  | some fault => .error (.reading fault)
  | none => .ok d.given?

/-- The directory with another record. -/
def writeRecord (d : Directory) (record : Value) : Directory :=
  d.write recordName (Json.write record)

/-- A record with another number of printings. -/
def withCount (record : Value) (count : Value) : Except ShapeFault Value :=
  match record with
  | .object fs => .ok (.object (Value.setField "printing_count" count fs))
  | .list _ => .error .listIndex
  | v => .error (.notIndexable v.kind)

/-- The directory whose record has another number of printings. -/
def updateCount (d : Directory) (count : Value) (levels : Nat := Levels.usual.status) :
    Except Failure Directory := do
  let given ← d.reading levels
  let record ← shaped (withCount (given.getD (.object [])) count)
  match d.obstacle? recordName with
  | some o => throw (.transfer (Transfer.refusal o))
  | none => pure (d.writeRecord record)

end Directory

/-- What is known of the data: when it was fetched, how many printings it brought,
its version, and whether a newer build is published. -/
structure Status where
  lastUpdated : Option Timestamp
  printingCount : Value
  version : Value
  isStale : Bool

/-- The status as a value. -/
def Status.fields (s : Status) : List (String × Value) :=
  [("last_updated", match s.lastUpdated with
      | some t => .text t.text
      | none => .null),
   ("printing_count", s.printingCount), ("version", s.version), ("stale", .bool s.isStale)]

namespace Transfer

/-- Whether a failure only says that the published build could not be read. -/
def isHarmless : Failure → Bool
  | .transfer (.disk _) => false
  | .transfer _ => true
  | .reading (.malformed _) => true
  | .reading (.manyDigits _) => true
  | _ => false

/-- Whether a published build differs from a local version. -/
def differs (version build : Value) : Except Failure Bool := do
  let published ← shaped (build.memberOf "version")
  pure (!published.truthy || !published.same version)

/-- Whether the published build is another one than that of the record. Without a
version, or without an answer, it counts as another one. -/
def isStale : Transfer Bool := do
  let exchange ← get
  let given ← ofExcept (exchange.files.reading exchange.levels.staleness)
  let version ← ofExcept (shaped (match given with
    | some record => record.memberOf "version"
    | none => .ok .null))
  -- without a local version nothing is requested
  if !version.truthy then pure true
  else
    let found ← tryCatch (some <$> build) fun e => if isHarmless e then pure none else throw e
    match found with
    | none => pure true
    | some published => ofExcept (differs version published)

/-- The moment that a record says the data was fetched at. A text that is no moment
is passed over. -/
def fetchedAt (record : Value) : Except Failure (Option Timestamp) := do
  let stamp ← shaped (record.memberOf "downloaded_at")
  if !stamp.truthy then pure none
  else
    match stamp with
    | .text s => pure (Timestamp.ofText? s)
    | _ => throw (.reading .notTimestamp)

/-- What is known of the data. -/
def status : Transfer Status := do
  let exchange ← get
  match ← ofExcept (exchange.files.reading exchange.levels.status) with
  | none => pure ⟨none, .int 0, .null, true⟩
  | some record =>
    let moment ← ofExcept (fetchedAt record)
    let count ← ofExcept (shaped (record.memberOr "printing_count" (.int 0)))
    let version ← ofExcept (shaped (record.memberOf "version"))
    let stale ← isStale
    pure ⟨moment, count, version, stale⟩

end Transfer

@[simp]
theorem Directory.given?_empty : Directory.empty.given? = none := rfl

end CardArchive
