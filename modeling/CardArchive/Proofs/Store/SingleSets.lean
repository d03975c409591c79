import Mathlib
import CardArchive.Proofs.Outcome
import CardArchive.Store.SetFile

/-!
# Files of one set

A file of one set wraps it, or is the set itself. What the file wraps is taken for the set
whatever it is; a file that wraps nothing has to be an object, and every other file is
refused. So a set is taken in alike from both kinds of file, as long as none of its own
fields has the name of the wrapper. Something else than an object gets as far as the
tables, where it is refused for the fields that it lacks.

## What this module delivers

* `SetFile.Holds`: what a file of one set holds.
* `single_of_holds`, `single_of_not_isObject`: what is found in a file, and what is refused.
* `insertSet_of_not_isObject`: only objects are taken in.
* `importSet_held`: files of one set, taken in.
* `single_list`: a list that is wrapped is found.
-/

set_option autoImplicit false

namespace CardArchive

theorem Value.isObject_settle (v : Value) : v.settle.isObject = v.isObject := by
  cases v <;> rfl

namespace SetFile

/-- What a file of one set holds: the first value that it wraps, or all of it if it is an
object that wraps nothing. -/
inductive Holds : Value → Value → Prop
  | wrapped {fs : List (String × Value)} {w : Value} (h : Value.lookup wrapper fs = some w) :
    Holds (.object fs) w
  | bare {fs : List (String × Value)} (h : Value.lookup wrapper fs = none) :
    Holds (.object fs) (.object fs)

variable {content : String} {v w : Value}

theorem exists_holds (v : Value) : (∃ w, Holds v w) ↔ v.isObject = true := by
  constructor
  · rintro ⟨w, h | h⟩ <;> rfl
  · intro h
    cases v with
    | object fs =>
      cases hwrapped : Value.lookup wrapper fs with
      | some w => exact ⟨w, .wrapped hwrapped⟩
      | none => exact ⟨_, .bare hwrapped⟩
    | _ => cases h

/-- The first wrapped value is the field of that name. -/
theorem head?_wrapped (fs : List (String × Value)) :
    (wrapped (.object fs)).head? = Value.lookup wrapper fs := by
  rw [wrapped, fieldsOf]
  induction fs with
  | nil => rfl
  | cons f fs ih =>
    obtain ⟨k, v⟩ := f
    by_cases hk : k = wrapper
    · simp [Value.lookup, hk]
    · rw [List.filter_cons_of_neg (by simpa using hk), ih]
      simp [Value.lookup, hk]

/-- What a file holds is found. -/
theorem single_of_holds (htree : tree content = .ok v) (h : Holds v w) (path : String) :
    single path content = .ok w.settle := by
  rw [single, htree, ok_bind]
  cases h with
  | wrapped hwrapped =>
    rw [← head?_wrapped] at hwrapped
    obtain ⟨rest, hrest⟩ := List.head?_eq_some_iff.1 hwrapped
    rw [hrest]
    rfl
  | bare hwrapped =>
    rw [← head?_wrapped, List.head?_eq_none_iff] at hwrapped
    rw [hwrapped]
    rfl

/-- A file that holds nothing is refused. -/
theorem single_of_not_isObject (htree : tree content = .ok v) (h : v.isObject = false)
    (path : String) : single path content = .error (.ingest (.noSetObject path)) := by
  rw [single, htree, ok_bind]
  cases v with
  | object fs => cases h
  | _ => rfl

theorem single_eq_ok_iff (htree : tree content = .ok v) {path : String} {s : Value} :
    single path content = .ok s ↔ ∃ w, Holds v w ∧ s = w.settle := by
  cases hobject : v.isObject with
  | true =>
    obtain ⟨w, hw⟩ := (exists_holds v).2 hobject
    constructor
    · intro h
      rw [single_of_holds htree hw] at h
      exact ⟨w, hw, (Except.ok.inj h).symm⟩
    · rintro ⟨w', hw', rfl⟩
      exact single_of_holds htree hw' path
  | false =>
    rw [single_of_not_isObject htree hobject]
    refine iff_of_false (by simp) ?_
    rintro ⟨w, hw, -⟩
    rw [(exists_holds v).1 ⟨w, hw⟩] at hobject
    cases hobject

end SetFile

namespace Database

open SetFile

/-- Only objects are taken in: a value of another kind lacks a field, or the name can not be
read of it. -/
theorem insertSet_of_not_isObject (db : Database) {s : Value} (h : s.isObject = false) :
    ∃ e, db.insertSet s = (db, .error e) := by
  have hname : Fails (setName s) := by
    rw [setName, fails_bind]
    by_cases hfields : Fails (checkFields s requiredSetFields)
    · exact .inl hfields
    · cases hchecked : checkFields s requiredSetFields with
      | error e => exact absurd ⟨e, hchecked⟩ hfields
      | ok u =>
        refine .inr ⟨u, rfl, ?_⟩
        cases s with
        | object fs => cases h
        | _ => exact fails_shaped.2 ⟨_, rfl⟩
  obtain ⟨e, he⟩ := hname
  exact ⟨e, by rw [insertSet, he]⟩

theorem importSet_of_single {db : Database} {path content : String} {s : Value}
    (h : single path content = .ok s) : db.importSet path content = db.insertSet s := by
  rw [importSet, h]

/-- **Files of one set.** Whatever value stands in a file: what is found is what the file
wraps, or all of it if it is an object that wraps nothing, and the file is refused exactly if
it is no object. What is found is taken in as it is; it is an object, or something else that
was wrapped, which is refused and leaves the database as it was. A set that wraps nothing is
taken in alike from any file that wraps it. -/
theorem importSet_held {content : String} {v : Value} (htree : tree content = .ok v)
    (path : String) (db : Database) :
    (∀ s, single path content = .ok s ↔ ∃ w, Holds v w ∧ s = w.settle) ∧
    (single path content = .error (.ingest (.noSetObject path)) ↔ v.isObject = false) ∧
    (v.isObject = false →
      db.importSet path content = (db, .error (.ingest (.noSetObject path)))) ∧
    (∀ s, single path content = .ok s → db.importSet path content = db.insertSet s ∧
      (s.isObject = false →
        (∃ fs w, v = .object fs ∧ Value.lookup wrapper fs = some w ∧ w.isObject = false) ∧
          ∃ e, db.importSet path content = (db, .error e))) ∧
    ∀ fs gs other path', v = .object fs → Value.lookup wrapper fs = none →
      tree other = .ok (.object gs) → Value.lookup wrapper gs = some (.object fs) →
      db.importSet path' other = db.importSet path content := by
  refine ⟨fun s => single_eq_ok_iff htree, ⟨?_, ?_⟩, ?_, ?_, ?_⟩
  · intro h
    by_contra hobject
    obtain ⟨w, hw⟩ := (exists_holds v).2 (Bool.eq_true_of_not_eq_false hobject)
    rw [single_of_holds htree hw] at h
    cases h
  · exact fun h => single_of_not_isObject htree h path
  · intro h
    rw [importSet, single_of_not_isObject htree h]
  · intro s hs
    refine ⟨importSet_of_single hs, fun hobject => ?_⟩
    obtain ⟨e, he⟩ := db.insertSet_of_not_isObject hobject
    refine ⟨?_, e, by rw [importSet_of_single hs, he]⟩
    obtain ⟨w, hw, rfl⟩ := (single_eq_ok_iff htree).1 hs
    rw [Value.isObject_settle] at hobject
    cases hw with
    | wrapped hwrapped => exact ⟨_, w, rfl, hwrapped, hobject⟩
    | bare hwrapped => cases hobject
  · rintro fs gs other path' rfl hbare hother hwrapped
    rw [importSet_of_single (single_of_holds hother (.wrapped hwrapped) path'),
      importSet_of_single (single_of_holds htree (.bare hbare) path)]

/-- A set, bare. -/
def bareVisions : String :=
  "\x7b\"code\":\"VIS\",\"name\":\"Visions\",\"releaseDate\":\"\",\"cards\":[]\x7d"

/-- The same set, wrapped. -/
def wrappedVisions : String := "\x7b\"meta\":\x7b\x7d,\"data\":" ++ bareVisions ++ "\x7d"

/-- The fields of the set. -/
def visionsFields : List (String × Value) :=
  [("code", .text "VIS"), ("name", .text "Visions"), ("releaseDate", .text ""), ("cards", .list [])]

theorem importSet_visions :
    tree bareVisions = .ok (.object visionsFields) ∧
      Value.lookup wrapper visionsFields = none ∧
      tree wrappedVisions = .ok (.object [("meta", .object []), ("data", .object visionsFields)]) ∧
      Database.empty.importSet "VIS.json" wrappedVisions =
        Database.empty.importSet "VIS.json" bareVisions ∧
      (Database.empty.importSet "VIS.json" bareVisions).2 = .ok 0 := by
  have hbare : tree bareVisions = .ok (.object visionsFields) := by cbv
  have hwrapped : tree wrappedVisions =
      .ok (.object [("meta", .object []), ("data", .object visionsFields)]) := by cbv
  have hnone : Value.lookup wrapper visionsFields = none := rfl
  obtain ⟨hfound, -, -, htaken, halike⟩ := importSet_held hbare "VIS.json" Database.empty
  refine ⟨hbare, hnone, hwrapped, ?_, ?_⟩
  · exact halike _ _ _ _ rfl hnone hwrapped rfl
  · rw [(htaken _ ((hfound _).2 ⟨_, .bare hnone, rfl⟩)).1]
    decide +kernel

/-- A list that is wrapped. -/
def wrappedList : String := "\x7b\"data\": []\x7d"

/-- A list is found where it is wrapped, and refused only for the first field of a set that
it lacks. -/
theorem single_list :
    tree wrappedList = .ok (.object [("data", .list [])]) ∧
      single "LEA.json" wrappedList = .ok (.list []) ∧
      (Database.empty.importSet "LEA.json" wrappedList).2 =
        .error (.ingest (.missingField "code")) := by
  have htree : tree wrappedList = .ok (.object [("data", .list [])]) := by cbv
  have hfound : single "LEA.json" wrappedList = .ok (.list []) :=
    single_of_holds htree (.wrapped rfl) _
  refine ⟨htree, hfound, ?_⟩
  rw [importSet_of_single hfound]
  rfl

end Database

end CardArchive
