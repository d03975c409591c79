import CardArchive.Proofs.Store.Layouts
import CardArchive.Proofs.Store.Steps

/-!
# Files of many sets, taken in

The sets of a file are taken in one after the other, but for those that are passed over for
the code that they are listed under or for their own. Each of them has a transaction of its
own, so the first one that fails leaves behind what the sets before it have brought, and is
the last that is tried. After each set it is reported how many sets and how many printings
there are by now, and the printings are counted right: a set is answered by the number of
rows that it adds to the table of printings.

## What this module delivers

* `insertSet_count`: what a set adds to the printings.
* `SetFile.Lists`: the files that list sets, in both layouts.
* `SetFile.supported`: the sets that are not passed over.
* `Database.grown` and `Database.reports`: the growth of the printings, and the counts after
  each of some sets.
* `importSets_listed`: the sets of a file, taken in.
-/

set_option autoImplicit false

namespace CardArchive

/-! ## The number of printings -/

namespace Tables

variable {t t' : Tables}

theorem addCardRow_printings {name card : Value} (h : t.addCardRow name card = .ok t') :
    t'.printings = t.printings := by
  obtain ⟨_, _, _, _, _, _, mid, _, -, -, -, -, -, hrow, hdetails⟩ := addCardRow_inserts h
  obtain ⟨⟨cards, new⟩, -, hrow⟩ := bind_eq_ok.1 hrow
  cases hrow
  rcases hdetails with ⟨-, hdetails⟩ | ⟨-, rfl⟩
  · have hsame := congrArg Tables.printings (addDetails_withoutDetails hdetails)
    exact hsame
  · rfl

/-- A printing is one row more exactly if it is new. -/
theorem addPrintingRow_count {expansion name card : Value} {isNew : Bool}
    (h : t.addPrintingRow expansion name card = .ok (t', isNew)) :
    t'.printings.length = t.printings.length + if isNew then 1 else 0 := by
  obtain ⟨_, _, _, _, _, _, _, _, _, -, -, -, -, -, -, h⟩ := addPrintingRow_inserts h
  obtain ⟨⟨printings, new⟩, hrows, h⟩ := bind_eq_ok.1 h
  cases h
  rcases insertOrSkip_eq_ok hrows with ⟨rfl, rfl⟩ | ⟨rfl, r, -, -, -, rfl⟩
  · rfl
  · simp

theorem addCards_count {expansion : Value} {cards : List Value} {i : Intake}
    (h : t.addCards expansion cards = .ok i) :
    i.tables.printings.length = t.printings.length + i.added := by
  -- from any tables, as each card meets what those before it have left
  induction cards generalizing t i with
  | nil =>
    cases h
    rfl
  | cons card rest ih =>
    unfold addCards at h
    obtain ⟨⟨mid, isNew⟩, hcard, h⟩ := bind_eq_ok.1 h
    obtain ⟨faces, -, h⟩ := bind_eq_ok.1 h
    obtain ⟨later, hlater, h⟩ := bind_eq_ok.1 h
    cases h
    obtain ⟨name, row, -, hrow, hprinting⟩ := addCardData_steps hcard
    have hone := addPrintingRow_count hprinting
    rw [addCardRow_printings hrow] at hone
    have hrest := ih hlater
    dsimp only
    omega

/-- The number that a set is answered by is that of the rows that it adds to the printings. -/
theorem addSet_count {name set : Value} {n : Nat} (h : t.addSet name set = .ok (t', n)) :
    t'.printings.length = t.printings.length + n := by
  unfold addSet at h
  obtain ⟨mid, hrow, h⟩ := bind_eq_ok.1 h
  obtain ⟨_, -, h⟩ := bind_eq_ok.1 h
  obtain ⟨cards, -, h⟩ := bind_eq_ok.1 h
  obtain ⟨intake, hintake, h⟩ := bind_eq_ok.1 h
  obtain ⟨last, hlast, h⟩ := bind_eq_ok.1 h
  cases h
  calc t'.printings.length
    _ = intake.tables.printings.length :=
      congrArg List.length (beside_of_ofCards (addAllFaces_ofCards hlast)).2
    _ = mid.printings.length + intake.added := addCards_count hintake
    _ = t.printings.length + intake.added := by
      rw [(beside_of_ofCards (addSetRow_ofCards hrow)).2]

end Tables

namespace Database

variable {db : Database} {set : Value} {rest : List Value}

theorem insertSet_count {n : Nat} (h : (db.insertSet set).2 = .ok n) :
    (db.insertSet set).1.tables.printings.length = db.tables.printings.length + n := by
  obtain ⟨name, -, hadded⟩ := insertSet_ok h
  exact Tables.addSet_count hadded

/-! ## Sets one after the other -/

theorem insertSets_cons_of_ok {n : Nat} (h : (db.insertSet set).2 = .ok n) :
    db.insertSets (set :: rest) = (db.insertSet set).1.insertSets rest := by
  rw [insertSets]
  generalize db.insertSet set = r at h
  obtain ⟨db', r⟩ := r
  obtain rfl : r = .ok n := h
  rfl

theorem insertSets_cons_of_error {e : Failure} (h : (db.insertSet set).2 = .error e) :
    db.insertSets (set :: rest) = (db, .error e) := by
  have hback := insertSet_of_error h
  rw [insertSets]
  generalize db.insertSet set = r at h hback
  obtain ⟨db', r⟩ := r
  obtain rfl : r = .error e := h
  rw [← hback]

/-- Some sets are all taken in, or those before the first one that fails. -/
theorem insertSets_cases (db : Database) (sets : List Value) :
    (db.insertSets sets).2 = .ok () ∨ ∃ before set after e, sets = before ++ set :: after ∧
      (db.insertSets before).2 = .ok () ∧ ((db.insertSets before).1.insertSet set).2 = .error e := by
  induction sets generalizing db with
  | nil => exact .inl rfl
  | cons set rest ih =>
    cases hset : (db.insertSet set).2 with
    | error e => exact .inr ⟨[], set, rest, e, rfl, rfl, hset⟩
    | ok n =>
      rcases ih (db.insertSet set).1 with hall | ⟨before, failing, after, e, rfl, hbefore, hfails⟩
      · exact .inl (by rw [insertSets_cons_of_ok hset, hall])
      · refine .inr ⟨set :: before, failing, after, e, rfl, ?_, ?_⟩
        · rw [insertSets_cons_of_ok hset, hbefore]
        · rw [insertSets_cons_of_ok hset, hfails]

/-- The number of printings that some sets add. -/
def grown (db : Database) (sets : List Value) : Nat :=
  (db.insertSets sets).1.tables.printings.length - db.tables.printings.length

/-- The numbers of sets and of new printings after each of some sets. -/
def reports (db : Database) (sets : List Value) : List (Nat × Nat) :=
  (List.range sets.length).map fun i => (i + 1, db.grown (sets.take (i + 1)))

theorem count_insertSets (db : Database) (sets : List Value) :
    (db.insertSets sets).1.tables.printings.length =
      db.tables.printings.length + db.grown sets := by
  have hle : db.tables.printings.length ≤ (db.insertSets sets).1.tables.printings.length := by
    induction sets generalizing db with
    | nil => exact le_refl _
    | cons set rest ih =>
      cases hset : (db.insertSet set).2 with
      | error e => rw [insertSets_cons_of_error hset]
      | ok n =>
        rw [insertSets_cons_of_ok hset]
        have hone := insertSet_count hset
        have hrest := ih (db.insertSet set).1
        omega
  rw [grown]
  omega

@[simp]
theorem grown_nil (db : Database) : db.grown [] = 0 := Nat.sub_self _

theorem grown_cons {n : Nat} (h : (db.insertSet set).2 = .ok n) :
    db.grown (set :: rest) = n + (db.insertSet set).1.grown rest := by
  have hall := db.count_insertSets (set :: rest)
  have hone := insertSet_count h
  have hrest := (db.insertSet set).1.count_insertSets rest
  rw [insertSets_cons_of_ok h] at hall
  omega

/-- After the first set the others are counted on. -/
theorem reports_cons {n : Nat} (h : (db.insertSet set).2 = .ok n) :
    db.reports (set :: rest) =
      (1, n) :: ((db.insertSet set).1.reports rest).map fun c => (c.1 + 1, n + c.2) := by
  simp only [reports, List.length_cons, List.range_succ_eq_map, List.map_cons, List.map_map,
    List.take_succ_cons, List.take_zero, grown_cons h, grown_nil, Nat.add_zero, Nat.zero_add]
  rfl

theorem getLast?_reports {sets : List Value} (h : sets ≠ []) :
    (db.reports sets).getLast? = some (sets.length, db.grown sets) := by
  obtain ⟨n, hn⟩ := Nat.exists_eq_succ_of_ne_zero (fun h0 => h (List.length_eq_zero_iff.1 h0))
  rw [reports, hn, List.range_succ, List.map_append, List.map_singleton,
    List.getLast?_concat, ← Nat.succ_eq_add_one, ← hn, List.take_length]

end Database

/-! ## The sets of a file -/

/-- The own code of a set as a text, empty if it has none. -/
def ownCode (set : Value) : String := ((set.field? "code").getD (.text "")).shown

/-- Whether a set is not passed over, neither for the code that it is listed under nor for its
own. -/
def isSupported (f : String × Value) : Bool :=
  !isUnsupported f.1 && !isUnsupported (ownCode f.2)

theorem isPassedOver_of_isObject {code : String} {set : Value} (h : set.isObject = true) :
    isPassedOver code set = .ok (!isSupported (code, set)) := by
  cases set with
  | object fs =>
    cases hcode : isUnsupported code with
    | true => simp [isPassedOver, isSupported, hcode]
    | false =>
      simp [isPassedOver, isSupported, hcode, Value.memberOr, ownCode, Except.map]
  | _ => cases h

namespace SetFile

/-- A file that lists sets under their codes: it wraps them once, beside whatever else it
says, or has them as its own fields. -/
inductive Lists (content : String) : List (String × Value) → Prop
  | wrapping (gs fs : List (String × Value)) (htree : tree content = .ok (.object gs))
      (hone : gs.filter (fun g => g.1 == wrapper) = [(wrapper, .object fs)])
      (hobjects : ∀ f ∈ fs, f.2.isObject = true) : Lists content fs
  | bare (gs : List (String × Value)) (htree : tree content = .ok (.object gs))
      (hnone : ∀ g ∈ gs, g.1 ≠ wrapper) :
      Lists content (gs.filter fun g => g.1 != about && g.2.isObject)

/-- The sets that are not passed over, in the order of the file. -/
def supported (fs : List (String × Value)) : List Value :=
  ((settled fs).filter isSupported).map Prod.snd

variable {content : String} {fs : List (String × Value)}

theorem Lists.objects (h : Lists content fs) : ∀ f ∈ settled fs, f.2.isObject = true := by
  have hraw : ∀ f ∈ fs, f.2.isObject = true := by
    cases h with
    | wrapping gs fs htree hone hobjects => exact hobjects
    | bare gs htree hnone =>
      intro f hf
      have hkept := (List.mem_filter.1 hf).2
      simp only [Bool.and_eq_true] at hkept
      exact hkept.2
  intro f hf
  obtain ⟨g, hg, rfl⟩ := List.mem_map.1 hf
  have hobject := hraw g hg
  generalize g.2 = v at hobject
  cases v with
  | object gs => rfl
  | _ => cases hobject

/-- The listed sets are found, if there is one. -/
theorem sets_of_lists (h : Lists content fs) (hne : fs ≠ []) : sets content = .ok (settled fs) := by
  cases h with
  | wrapping gs fs htree hone hobjects =>
    have hinside : (wrapped (.object gs)).flatMap fieldsOf = fs := by
      rw [wrapped, fieldsOf, hone, List.map_singleton, List.flatMap_singleton, fieldsOf]
    exact sets_of_inside htree hinside hne
  | bare gs htree hnone => exact sets_of_unwrapped htree hnone

end SetFile

/-! ## The sets of a file, taken in -/

namespace Database

/-- What is passed over might as well not be there. -/
theorem importFrom_filter (db : Database) (k n : Nat) {fs : List (String × Value)}
    (h : ∀ f ∈ fs, f.2.isObject = true) :
    db.importFrom k n fs = db.importFrom k n (fs.filter isSupported) := by
  induction fs generalizing db k n with
  | nil => rfl
  | cons f fs ih =>
    obtain ⟨code, set⟩ := f
    obtain ⟨hset, hrest⟩ := List.forall_mem_cons.1 h
    cases hkept : isSupported (code, set) with
    | false =>
      have hpassed : isPassedOver code set = .ok true := by
        rw [isPassedOver_of_isObject hset, hkept, Bool.not_false]
      rw [List.filter_cons_of_neg (by simp [hkept]), importFrom, hpassed]
      exact ih _ _ _ hrest
    | true =>
      have hpassed : isPassedOver code set = .ok false := by
        rw [isPassedOver_of_isObject hset, hkept, Bool.not_true]
      rw [List.filter_cons_of_pos hkept, importFrom, importFrom, hpassed]
      cases db.insertSet set with
      | mk db' r =>
        cases r with
        | error e => rfl
        | ok m =>
          dsimp only
          rw [ih _ _ _ hrest]

/-- Sets that are all taken in are reported one by one, and the others follow them. -/
theorem importFrom_append {db : Database} (k n : Nat) {fs : List (String × Value)}
    (rest : List (String × Value)) (hkept : ∀ f ∈ fs, isPassedOver f.1 f.2 = .ok false)
    (h : (db.insertSets (fs.map Prod.snd)).2 = .ok ()) :
    db.importFrom k n (fs ++ rest) =
      let run := (db.insertSets (fs.map Prod.snd)).1.importFrom (k + fs.length)
        (n + db.grown (fs.map Prod.snd)) rest
      { run with
        progress := (db.reports (fs.map Prod.snd)).map (fun c => (k + c.1, n + c.2)) ++
          run.progress } := by
  -- on the sets, from any database and any counts, as every set is counted on from the last one
  induction fs generalizing db k n with
  | nil => simp [reports]
  | cons f fs ih =>
    obtain ⟨code, set⟩ := f
    obtain ⟨hset, hfs⟩ := List.forall_mem_cons.1 hkept
    rw [List.map_cons] at h ⊢
    cases hone : (db.insertSet set).2 with
    | error e =>
      rw [insertSets_cons_of_error hone] at h
      cases h
    | ok m =>
      rw [insertSets_cons_of_ok hone] at h ⊢
      have hrun := ih (k + 1) (n + m) hfs h
      have hstep : db.importFrom k n ((code, set) :: (fs ++ rest)) =
          let run := (db.insertSet set).1.importFrom (k + 1) (n + m) (fs ++ rest)
          { run with progress := (k + 1, n + m) :: run.progress } := by
        rw [importFrom, hset]
        generalize db.insertSet set = r at hone
        obtain ⟨db', r⟩ := r
        obtain rfl : r = .ok m := hone
        rfl
      rw [List.cons_append, hstep, hrun, grown_cons hone, reports_cons hone, List.length_cons]
      have hcounts : k + 1 + fs.length = k + (fs.length + 1) := by omega
      simp only [hcounts, Nat.add_assoc, List.map_cons, List.map_map, List.cons_append]
      congr 3
      refine List.map_congr_left fun c _ => ?_
      simp only [Function.comp_apply, Nat.add_comm c.1 1]

theorem isPassedOver_of_mem {fs : List (String × Value)}
    (h : ∀ f ∈ fs, f.2.isObject = true) :
    ∀ f ∈ fs.filter isSupported, isPassedOver f.1 f.2 = .ok false := by
  intro f hf
  obtain ⟨hmem, hkept⟩ := List.mem_filter.1 hf
  rw [isPassedOver_of_isObject (h f hmem), hkept]
  rfl

theorem importSets_eq {content : String} {fs : List (String × Value)}
    (h : SetFile.Lists content fs) (hne : fs ≠ []) (db : Database) :
    db.importSets content = db.importFrom 0 0 ((SetFile.settled fs).filter isSupported) := by
  rw [importSets, SetFile.sets_of_lists h hne, ← importFrom_filter _ _ _ h.objects]

/-- **The sets of a file are taken in one after the other.** Let a file list sets, at least
one, in either layout. Those that are not passed over are taken in, in the order of the file.
If all of them succeed, the result is the growth of the number of printings, and after each
set its number and the growth so far are reported, so the last report is the result. If one
of them fails, its failure is the result, and the database and the reports are those of the
sets before it. -/
theorem importSets_listed {content : String} {fs : List (String × Value)}
    (h : SetFile.Lists content fs) (hne : fs ≠ []) (db : Database) :
    let sets := SetFile.supported fs
    ((db.insertSets sets).2 = .ok () →
      db.importSets content = ⟨(db.insertSets sets).1, db.reports sets, .ok (db.grown sets)⟩) ∧
    (∀ before set after e, sets = before ++ set :: after → (db.insertSets before).2 = .ok () →
      ((db.insertSets before).1.insertSet set).2 = .error e →
      db.importSets content = ⟨(db.insertSets before).1, db.reports before, .error e⟩) ∧
    ((db.insertSets sets).2 = .ok () ∨ ∃ before set after e, sets = before ++ set :: after ∧
      (db.insertSets before).2 = .ok () ∧
      ((db.insertSets before).1.insertSet set).2 = .error e) ∧
    (∀ first, (db.insertSets first).1.tables.printings.length =
      db.tables.printings.length + db.grown first) ∧
    (sets ≠ [] → (db.reports sets).getLast? = some (sets.length, db.grown sets)) := by
  intro sets
  have hkept := isPassedOver_of_mem h.objects
  refine ⟨?_, ?_, db.insertSets_cases sets, db.count_insertSets, getLast?_reports⟩
  · intro hall
    have hrun := importFrom_append 0 0 [] hkept hall
    rw [List.append_nil] at hrun
    rw [importSets_eq h hne, hrun]
    simp [sets, SetFile.supported]
  · intro before set after e hsets hbefore hfails
    -- the same place in the list of sets with their codes
    obtain ⟨first, last, hfs, rfl, hlast⟩ := List.map_eq_append_iff.1 hsets
    obtain ⟨f, later, rfl, rfl, rfl⟩ := List.map_eq_cons_iff.1 hlast
    rw [hfs] at hkept
    obtain ⟨hfirst, hrest⟩ := List.forall_mem_append.1 hkept
    rw [importSets_eq h hne, hfs, importFrom_append 0 0 _ hfirst hbefore, importFrom,
      hrest f List.mem_cons_self]
    have hback := insertSet_of_error hfails
    generalize (db.insertSets (first.map Prod.snd)).1.insertSet f.2 = r at hfails hback
    obtain ⟨db', r⟩ := r
    obtain rfl : r = .error e := hfails
    obtain rfl : db' = _ := hback
    simp

/-- A set with one card. -/
def forestSet : Value :=
  .object [("code", .text "MIR"), ("name", .text "Mirage"), ("releaseDate", .text ""),
    ("cards", .list [.object [("name", .text "Forest"), ("number", .text "1"),
      ("rarity", .text "C")]])]

/-- Three sets: the second is passed over for its own code, and the third has no fields. -/
def mixedSets : List (String × Value) :=
  [("MIR", forestSet), ("XXX", .object [("code", .text "unh")]), ("VIS", .object [])]

/-- The three sets, wrapped. -/
def mixedFile : String :=
  "\x7b\"data\":\x7b\"MIR\":\x7b\"code\":\"MIR\",\"name\":\"Mirage\",\"releaseDate\":\"\"," ++
  "\"cards\":[\x7b\"name\":\"Forest\",\"number\":\"1\",\"rarity\":\"C\"\x7d]\x7d," ++
  "\"XXX\":\x7b\"code\":\"unh\"\x7d,\"VIS\":\x7b\x7d\x7d\x7d"

set_option maxRecDepth 1000 in
/-- Of the three sets the first one is taken in and reported, and the third one ends the run. -/
theorem importSets_mixedFile :
    SetFile.Lists mixedFile mixedSets ∧ mixedSets ≠ [] ∧
      (Database.empty.importSets mixedFile).result = .error (.ingest (.missingField "code")) ∧
      (Database.empty.importSets mixedFile).progress = [(1, 1)] ∧
      (Database.empty.importSets mixedFile).database = (Database.empty.insertSet forestSet).1 := by
  have hlists : SetFile.Lists mixedFile mixedSets :=
    .wrapping [("data", .object mixedSets)] mixedSets (by cbv) rfl (by decide)
  have hne : mixedSets ≠ [] := List.cons_ne_nil _ _
  have hsupported : SetFile.supported mixedSets = [forestSet, .object []] := by cbv
  have hfirst : (Database.empty.insertSets [forestSet]).2 = .ok () := by decide +kernel
  have hfails : ((Database.empty.insertSets [forestSet]).1.insertSet (.object [])).2 =
      .error (.ingest (.missingField "code")) := by decide +kernel
  obtain ⟨-, hbroken, -⟩ := importSets_listed hlists hne Database.empty
  rw [hbroken [forestSet] (.object []) [] _ hsupported hfirst hfails]
  exact ⟨hlists, hne, rfl, by decide +kernel, by decide +kernel⟩

end Database

end CardArchive
