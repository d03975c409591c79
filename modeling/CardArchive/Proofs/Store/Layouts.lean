import CardArchive.Proofs.Outcome
import CardArchive.Store.SetFile
import Mathlib

/-!
# Layouts of files of sets

A file that holds many sets either wraps them, beside what it says about itself, or has
them as its own fields. Both layouts are read by looking for wrapped sets first and for
bare ones if there are none. Sets are therefore taken in alike from both, as long as
there is one: a wrapper without sets is taken for a bare set itself, and that set has no
fields.

## What this module delivers

* `SetFile.Wraps`, `SetFile.Bares`: the two layouts of a file.
* `SetFile.Codes`: what sets by their codes have to look like.
* `sets_of_inside`, `sets_of_unwrapped`: what is found in a file that wraps something, and in
  one that wraps nothing.
* `sets_of_wraps`, `sets_of_bares`: the sets that are found in each layout.
* `importSets_layouts`: the two layouts of the same sets, taken in.
-/

set_option autoImplicit false

namespace CardArchive

namespace SetFile

/-- A file wraps some fields, beside what it says about itself. -/
def Wraps (content : String) (fs : List (String × Value)) : Prop :=
  ∃ gs about, tree content = .ok (.object gs) ∧
    gs.Perm [(SetFile.about, about), (wrapper, .object fs)]

/-- A file has some fields as its own. -/
def Bares (content : String) (fs : List (String × Value)) : Prop := tree content = .ok (.object fs)

/-- Sets under their codes: no code is one of the two names with a meaning of their own, and
every set is an object. -/
structure Codes (fs : List (String × Value)) : Prop where
  notAbout : ∀ f ∈ fs, f.1 ≠ about
  notWrapper : ∀ f ∈ fs, f.1 ≠ wrapper
  objects : ∀ f ∈ fs, f.2.isObject = true

/-- Sets as they are taken in: each has every name once. -/
def settled (fs : List (String × Value)) : List (String × Value) := fs.map fun f => (f.1, f.2.settle)

section

variable {content : String} {fs gs : List (String × Value)} {own : Value}

/-- The sets of a file are the wrapped ones, or the bare ones if no set is wrapped. -/
theorem sets_of_tree {v : Value} (h : tree content = .ok v) :
    sets content = .ok (settled (if ((wrapped v).flatMap fieldsOf).isEmpty then
      (fieldsOf v).filter fun f => f.1 != about && f.2.isObject
      else (wrapped v).flatMap fieldsOf)) := by
  rw [sets, h]
  rfl

theorem wrapped_of_perm (h : gs.Perm [(about, own), (wrapper, .object fs)]) :
    wrapped (.object gs) = [.object fs] := by
  have hfound : (gs.filter fun f => f.1 == wrapper).Perm [(wrapper, .object fs)] := h.filter _
  rw [wrapped, fieldsOf, List.perm_singleton.1 hfound]
  rfl

/-- What a file wraps is found, if there is something. -/
theorem sets_of_inside {v : Value} (htree : tree content = .ok v)
    (hinside : (wrapped v).flatMap fieldsOf = fs) (hne : fs ≠ []) :
    sets content = .ok (settled fs) := by
  rw [sets_of_tree htree, hinside, if_neg (by simpa using hne)]

/-- Of a file that wraps nothing the fields are found that can be sets. -/
theorem sets_of_unwrapped (htree : tree content = .ok (.object gs))
    (hnone : ∀ g ∈ gs, g.1 ≠ wrapper) :
    sets content = .ok (settled (gs.filter fun g => g.1 != about && g.2.isObject)) := by
  have hinside : wrapped (.object gs) = [] := by
    rw [wrapped, fieldsOf, List.map_eq_nil_iff, List.filter_eq_nil_iff]
    exact fun g hg => by simpa using hnone g hg
  rw [sets_of_tree htree, hinside, List.flatMap_nil, if_pos List.isEmpty_nil, fieldsOf]

/-- Wrapped sets are found, if there is one. -/
theorem sets_of_wraps (h : Wraps content fs) (hne : fs ≠ []) : sets content = .ok (settled fs) := by
  obtain ⟨gs, own, htree, hperm⟩ := h
  have hinside : (wrapped (.object gs)).flatMap fieldsOf = fs := by
    rw [wrapped_of_perm hperm, List.flatMap_singleton, fieldsOf]
  exact sets_of_inside htree hinside hne

/-- A wrapper without sets is found as a set of its own. -/
theorem sets_of_wraps_nil (h : Wraps content []) : sets content = .ok [(wrapper, .object [])] := by
  obtain ⟨gs, own, htree, hperm⟩ := h
  have hinside : (wrapped (.object gs)).flatMap fieldsOf = [] := by
    rw [wrapped_of_perm hperm, List.flatMap_singleton, fieldsOf]
  -- the wrapper is the one object among the fields that is not about the file
  have hbare : (gs.filter fun f => f.1 != about && f.2.isObject).Perm [(wrapper, .object [])] := by
    have hfound := hperm.filter fun f => f.1 != about && f.2.isObject
    rwa [List.filter_cons_of_neg (by simp), List.filter_cons_of_pos (by decide),
      List.filter_nil] at hfound
  rw [sets_of_tree htree, hinside, if_pos List.isEmpty_nil, fieldsOf,
    List.perm_singleton.1 hbare]
  rfl

/-- Bare sets are found, whether there is one or not. -/
theorem sets_of_bares (hcodes : Codes fs) (h : Bares content fs) :
    sets content = .ok (settled fs) := by
  have hbare : fs.filter (fun f => f.1 != about && f.2.isObject) = fs := by
    rw [List.filter_eq_self]
    intro f hf
    simp [hcodes.notAbout f hf, hcodes.objects f hf]
  rw [sets_of_unwrapped h hcodes.notWrapper, hbare]

end

end SetFile

namespace Database

open SetFile

/-- A set without fields is refused for the first field that it lacks. -/
theorem importFrom_emptyObject (db : Database) (sets printings : Nat)
    (rest : List (String × Value)) :
    db.importFrom sets printings ((wrapper, .object []) :: rest) =
      ⟨db, [], .error (.ingest (.missingField "code"))⟩ := by
  have hkept : isPassedOver wrapper (.object []) = .ok false := rfl
  rw [importFrom, hkept]
  rfl

/-- **Both layouts of the same sets are taken in alike.** Whatever the database is, sets
under their codes give the same database, the same counts after each set and the same
result, be they wrapped or bare, if there is a set. Without a set the bare file is taken
in as nothing, and the wrapped one is refused; neither changes the database. -/
theorem importSets_layouts {wrappedFile bareFile : String} {fs : List (String × Value)}
    (hcodes : Codes fs) (hwrapped : Wraps wrappedFile fs) (hbare : Bares bareFile fs)
    (db : Database) :
    (fs ≠ [] → db.importSets wrappedFile = db.importSets bareFile) ∧
      (fs = [] → db.importSets bareFile = ⟨db, [], .ok 0⟩ ∧
        db.importSets wrappedFile = ⟨db, [], .error (.ingest (.missingField "code"))⟩) := by
  constructor
  · intro hne
    rw [importSets, importSets, sets_of_wraps hwrapped hne, sets_of_bares hcodes hbare]
  · rintro rfl
    constructor
    · rw [importSets, sets_of_bares hcodes hbare]
      rfl
    · rw [importSets, sets_of_wraps_nil hwrapped]
      exact importFrom_emptyObject db 0 0 []

/-- A file of one set, wrapped. -/
def wrappedMirage : String :=
  "\x7b\"meta\":\x7b\x7d,\"data\":\x7b\"MIR\":\x7b\"code\":\"MIR\",\"name\":\"Mirage\",\"releaseDate\":\"\"," ++
    "\"cards\":[]\x7d\x7d\x7d"

/-- The same set, bare. -/
def bareMirage : String :=
  "\x7b\"MIR\":\x7b\"code\":\"MIR\",\"name\":\"Mirage\",\"releaseDate\":\"\",\"cards\":[]\x7d\x7d"

/-- The set of both files under its code. -/
def mirageFields : List (String × Value) :=
  [("MIR", .object [("code", .text "MIR"), ("name", .text "Mirage"), ("releaseDate", .text ""),
    ("cards", .list [])])]

theorem importSets_mirage :
    Codes mirageFields ∧ Wraps wrappedMirage mirageFields ∧ Bares bareMirage mirageFields ∧
      mirageFields ≠ [] ∧
      Database.empty.importSets wrappedMirage = Database.empty.importSets bareMirage ∧
      (Database.empty.importSets bareMirage).progress = [(1, 0)] := by
  have hcodes : Codes mirageFields := by constructor <;> decide
  have hwrapped : Wraps wrappedMirage mirageFields :=
    ⟨[("meta", .object []), ("data", .object mirageFields)], .object [], by cbv, .refl _⟩
  have hbare : Bares bareMirage mirageFields := by
    unfold Bares
    cbv
  have hne : mirageFields ≠ [] := List.cons_ne_nil _ _
  refine ⟨hcodes, hwrapped, hbare, hne, ?_, ?_⟩
  · exact (importSets_layouts hcodes hwrapped hbare Database.empty).1 hne
  · rw [importSets, sets_of_bares hcodes hbare]
    decide +kernel

/-- No sets, wrapped. -/
def wrappedNone : String := "\x7b\"meta\": \x7b\x7d, \"data\": \x7b\x7d\x7d"

/-- No sets, bare. -/
def bareNone : String := "\x7b\x7d"

/-- The two layouts of no sets are not taken in alike. -/
theorem importSets_none :
    Codes [] ∧ Wraps wrappedNone [] ∧ Bares bareNone [] ∧
      (Database.empty.importSets bareNone).result = .ok 0 ∧
      (Database.empty.importSets wrappedNone).result =
        .error (.ingest (.missingField "code")) := by
  have hcodes : Codes [] := ⟨by simp, by simp, by simp⟩
  have hwrapped : Wraps wrappedNone [] :=
    ⟨[("meta", .object []), ("data", .object [])], .object [], by cbv, .refl _⟩
  have hbare : Bares bareNone [] := by
    unfold Bares
    cbv
  refine ⟨hcodes, hwrapped, hbare, ?_, ?_⟩
  · rw [importSets, sets_of_bares hcodes hbare]
    rfl
  · rw [importSets, sets_of_wraps_nil hwrapped]
    exact congrArg ImportRun.result (importFrom_emptyObject Database.empty 0 0 [])

end Database

end CardArchive
