import CardArchive.Cli.Run
import CardArchive.Proofs.Download.Versions
import Mathlib

/-!
# When a download is skipped

Downloads and imports follow each other in one directory. The directory has a single record,
which a download replaces once its file is stored, before the file is taken in, and an import
changes nothing in it but the number of printings. A download that is not forced is skipped
if the record has the version that is published now. The files are taken to have other names
than the record.

## What this module delivers

* `Deed` and `Step`: what is done in a directory, with what answers it.
* `lastArrival`: what the record was last replaced by.
* `traced_allAfter`: the version in the record is a copy of what the last arrival brought.
* `arrived_of_skipped`: a download is skipped only if the last arrival brought the version
  that is published now.
* `skipped_unfetched`: the file that arrived may have been another one.
-/

set_option autoImplicit false

namespace CardArchive.Cli

open scoped Function

/-! ## What the commands leave -/

section

variable {S : Place → Place → Prop} [IsPreorder Place S]

theorem moves_print (s : String) : Moves (S on Desk.place) (print s) :=
  moves_modify fun d => refl_of S d.place

theorem moves_printLine (s : String) : Moves (S on Desk.place) (printLine s) := moves_print _

theorem moves_need {α : Type} (r : Except Failure α) : Moves (S on Desk.place) (need r) := by
  cases r with
  | error e => exact moves_throw e
  | ok a => exact moves_pure a

theorem moves_printProgress (steps : List (Nat × Int)) :
    Moves (S on Desk.place) (printProgress steps) := by
  induction steps with
  | nil => exact moves_pure ()
  | cons step steps ih =>
    exact moves_bind (moves_need _) fun bar => moves_bind (moves_print _) fun _ => ih

theorem moves_printImport (steps : List (Nat × Nat)) :
    Moves (S on Desk.place) (printImport steps) := by
  induction steps with
  | nil => exact moves_pure ()
  | cons step steps ih => exact moves_bind (moves_print _) fun _ => ih

end

/-- A transfer starts from the files of the place and from the answers still to come, and
leaves both as it has changed them. -/
theorem run_transferred {α : Type} (work : Transfer α) (d : Desk) :
    (transferred work).run.run d =
      let e := Exchange.start d.replies d.place.files
      (.ok (work.outcome e, (work.after e).progress),
        { d with
          place := { d.place with files := (work.after e).files }
          replies := (work.after e).replies }) := rfl

theorem run_transfer {α : Type} (work : Transfer α) (d : Desk) :
    (transfer work).run.run d =
      let e := Exchange.start d.replies d.place.files
      (work.outcome e, { d with
        place := { d.place with files := (work.after e).files }
        replies := (work.after e).replies }) := by
  unfold transfer
  rw [run_bind, run_transferred]
  dsimp only
  cases work.outcome (Exchange.start d.replies d.place.files) <;> rfl

/-- A transfer that leaves the files as they are leaves the place as it is. -/
theorem moves_transfer {α : Type} {work : Transfer α}
    (h : Moves (Eq on Exchange.files) work) : Moves (Eq on Desk.place) (transfer work) := by
  intro d
  have hfiles := h (Exchange.start d.replies d.place.files)
  rw [run_transfer]
  exact congrArg (fun f => (⟨f, d.place.tables⟩ : Place)) hfiles

/-- Whether the data is current is found out without a change of the place. -/
theorem place_isCurrent : Moves (Eq on Desk.place) isCurrent := by
  have hfollow := Transfer.sameFiles_follow metaAddress
  refine moves_bind (moves_printLine _) fun _ => ?_
  refine moves_bind (moves_transfer (Transfer.moves_isStale hfollow)) fun stale => ?_
  split
  · exact moves_pure false
  · refine moves_bind (moves_transfer (Transfer.moves_status hfollow)) fun status => ?_
    refine moves_bind (moves_need _) fun count => ?_
    refine moves_bind (moves_printLine _) fun _ => ?_
    exact moves_bind (moves_printLine _) fun _ => moves_pure true

/-- The record of a place got any numbers of printings. -/
def Counted : Place → Place → Prop := Relation.ReflTransGen Directory.Counts on Place.files

instance : IsPreorder Place Counted := inferInstanceAs (IsPreorder Place (_ on Place.files))

theorem counted_recordCount (count : Nat) : Moves (Counted on Desk.place) (recordCount count) := by
  refine moves_get_bind fun d => ?_
  cases hcount : d.place.files.updateCount (.int count) with
  | error f => exact refl_of Counted d.place
  | ok files => exact .single ⟨count, Levels.usual.status, hcount⟩

/-- An import takes rows in and does not touch the record. -/
theorem counted_importFile (path content : String) (single : Bool) :
    Moves (Counted on Desk.place) (importFile path content single) := by
  refine moves_get_bind fun d => ?_
  let db : Database := ⟨d.place.tables, false⟩
  let desk (tables : Tables) : Desk := { d with place := { d.place with tables := tables } }
  dsimp only
  split
  · exact moves_need (S := Counted) (db.importSet path content).2
      (desk (db.importSet path content).1.tables)
  · have hrest : Moves (Counted on Desk.place) (do
        printImport (db.importSets content).progress
        need (db.importSets content).result) :=
      moves_bind (moves_printImport _) fun _ => moves_need _
    exact hrest (desk (db.importSets content).database.tables)

theorem counted_ingestFile (path : String) (content : Content) (single : Bool) :
    Moves (Counted on Desk.place) (ingestFile path content single) := by
  cases content with
  | text s =>
    refine moves_bind (moves_printLine _) fun _ => ?_
    refine moves_bind (counted_importFile path s single) fun total => ?_
    exact moves_bind (moves_printLine _) fun _ => counted_recordCount total
  | bytes b | folder => exact moves_bind (moves_printLine _) fun _ => moves_throw _

theorem counted_ingest (places : Places) (directory : String) (file : Option String)
    (single : Bool) : Moves (Counted on Desk.place) (ingest places directory file single) := by
  refine moves_get_bind fun d => ?_
  split
  · exact moves_bind (moves_printLine _) (fun _ => moves_printLine _) d
  · split
    · exact moves_printLine _ d
    · exact counted_ingestFile _ _ single d

/-- After the transfer of its file a download takes the file in, and only counts. -/
theorem counted_fetch (directory name : String) (now : Timestamp) (d : Desk) :
    let e := Exchange.start d.replies d.place.files
    Relation.ReflTransGen Directory.Counts
      ((Transfer.download name Transfer.defaultRetries now).after e).files
      ((fetch directory name now).run.run d).2.place.files := by
  have hrest : ∀ (result : Except Failure String) (progress : List (Nat × Int)),
      Moves (Counted on Desk.place) (do
        printProgress progress
        let stored ← need result
        let path := joinPath directory stored
        printLine ("\nSaved " ++ path ++ "\n")
        let desk ← get
        let total ← importFile path ((desk.place.files.read? stored).getD "") (name != defaultFile)
        recordCount total
        printImported total) := by
    intro result progress
    refine moves_bind (moves_printProgress progress) fun _ => ?_
    refine moves_bind (moves_need result) fun stored => ?_
    refine moves_bind (moves_printLine _) fun _ => ?_
    refine moves_bind moves_get fun desk => ?_
    refine moves_bind (counted_importFile _ _ _) fun total => ?_
    exact moves_bind (counted_recordCount total) fun _ => moves_printLine _
  let e := Exchange.start d.replies d.place.files
  let x := Transfer.download name Transfer.defaultRetries now
  exact hrest (x.outcome e) (x.after e).progress
    ⟨⟨(x.after e).files, d.place.tables⟩, (x.after e).replies,
      d.output ++ ("Fetching " ++ storedName name ++ " from MTGJSON" ++ "\n")⟩

/-! ## Downloads that are skipped -/

/-- A report of a failure leaves the place as it is. -/
theorem place_reported (work : Console Unit) (d : Desk) :
    ((reported work).run.run d).2.place = (work.run.run d).2.place := by
  unfold reported
  rw [run_tryCatch]
  generalize work.run.run d = r
  obtain ⟨r, d'⟩ := r
  cases r <;> rfl

/-- The desk at which a download starts to fetch its file, if it does. -/
def fetching? (force : Bool) (d : Desk) : Option Desk :=
  if force then some d
  else match isCurrent.run.run d with
    | (.ok false, d') => some d'
    | _ => none

/-- A download that does not fetch its file leaves the place as it is. -/
theorem place_download (directory name : String) (force : Bool) (now : Timestamp) (d : Desk) :
    ((download directory name force now).run.run d).2.place = match fetching? force d with
      | some d' => ((fetch directory name now).run.run d').2.place
      | none => d.place := by
  have hcurrent := place_isCurrent d
  rw [download, place_reported, fetching?]
  cases force with
  | true => rfl
  | false =>
    simp only [Bool.false_eq_true, if_false]
    rw [run_bind]
    generalize isCurrent.run.run d = r at hcurrent ⊢
    obtain ⟨r, d'⟩ := r
    rcases r with e | _ | _
    · exact hcurrent.symm
    · rfl
    · exact hcurrent.symm

theorem place_fetching {force : Bool} {d d' : Desk} (h : fetching? force d = some d') :
    d'.place = d.place := by
  have hcurrent := place_isCurrent d
  unfold fetching? at h
  split at h
  · cases h
    rfl
  · split at h
    · rename_i d'' hrun
      cases h
      rw [hrun] at hcurrent
      exact hcurrent.symm
    · cases h

/-! ## Steps in a directory -/

/-- What is done in a directory: a file is fetched and taken in, a file is fetched, or a file
is taken in, for which the other directories matter. -/
inductive Deed where
  | download (name : String) (force : Bool)
  | fetch (name : String) (retries : Int)
  | ingest (others : Places) (file : Option String) (single : Bool)

/-- A deed, with what answers its requests and the moment at which it is done. -/
structure Step where
  deed : Deed
  replies : List Reply
  now : Timestamp

/-- The name of the file that a deed may ask for. -/
def Deed.name? : Deed → Option String
  | .download name _ | .fetch name _ => some name
  | .ingest _ _ _ => none

namespace Step

/-- The computation of a step at a place. -/
def work (directory : String) (place : Place) (step : Step) : Console Unit :=
  match step.deed with
  | .download name force => Cli.download directory name force step.now
  | .fetch name retries => do
    let _ ← transfer (Transfer.download name retries step.now)
  | .ingest others file single => Cli.ingest (others.put directory place) directory file single

/-- The place after a step, whether it succeeds or not. -/
def after (directory : String) (place : Place) (step : Step) : Place :=
  ((step.work directory place).run.run ⟨place, step.replies, ""⟩).2.place

/-- The place after several steps. -/
def allAfter (directory : String) (steps : List Step) (place : Place) : Place :=
  steps.foldl (after directory) place

/-- The file that a step asks for, with the retries and the exchange that it starts from. -/
def asked? (place : Place) (step : Step) : Option (String × Int × Exchange) :=
  match step.deed with
  | .download name force => (fetching? force ⟨place, step.replies, ""⟩).map fun d =>
    (name, Transfer.defaultRetries, Exchange.start d.replies d.place.files)
  | .fetch name retries => some (name, retries, Exchange.start step.replies place.files)
  | .ingest _ _ _ => none

/-- What a step brings in place of the record, if anything. -/
def arrival? (place : Place) (step : Step) : Option Arrival :=
  (step.asked? place).bind fun a => Transfer.arrival? a.1 a.2.1 a.2.2

/-- What the record was last replaced by in several steps. -/
def lastArrival (directory : String) : List Step → Place → Option Arrival
  | [], _ => none
  | step :: steps, place =>
    (lastArrival directory steps (step.after directory place)).or (step.arrival? place)

theorem name?_of_asked? {place : Place} {step : Step} {name : String} {retries : Int}
    {e : Exchange} (h : step.asked? place = some (name, retries, e)) :
    step.deed.name? = some name := by
  obtain ⟨deed, replies, now⟩ := step
  cases deed with
  | download name' force =>
    obtain ⟨d, -, hasked⟩ := Option.map_eq_some_iff.1 h
    cases hasked
    rfl
  | fetch name' retries' =>
    cases h
    rfl
  | ingest others file single => cases h

/-- Under any names but that of the record, what arrived last is recorded. -/
theorem lastArrival_recorded {directory : String} {steps : List Step} {place : Place} {a : Arrival}
    (hnames : ∀ step ∈ steps, step.deed.name? ≠ some "metadata")
    (h : lastArrival directory steps place = some a) : ∃ name build, a = .recorded name build := by
  induction steps generalizing place with
  | nil => cases h
  | cons step steps ih =>
    obtain ⟨hfirst, hrest⟩ := List.forall_mem_cons.1 hnames
    rcases Option.or_eq_some_iff.1 h with hlater | ⟨-, hnow⟩
    · exact ih hrest hlater
    · obtain ⟨⟨name, retries, e⟩, hasked, harrival⟩ := Option.bind_eq_some_iff.1 hnow
      rw [name?_of_asked? hasked] at hfirst
      exact ⟨name, Transfer.arrival?_of_ne_metadata (fun hname => hfirst (congrArg some hname))
        harrival⟩

/-- A step that only fetches a file leaves what the download of the file leaves. -/
theorem after_fetch (directory name : String) (retries : Int) (replies : List Reply)
    (now : Timestamp) (place : Place) :
    after directory place ⟨.fetch name retries, replies, now⟩ =
      ⟨((Transfer.download name retries now).after (.start replies place.files)).files,
        place.tables⟩ := by
  rw [after, work, run_bind, run_transfer]
  dsimp only
  cases (Transfer.download name retries now).outcome (Exchange.start replies place.files) <;> rfl

/-- A step that asks for no file only counts. -/
theorem counted_after (directory : String) {place : Place} {step : Step}
    (h : step.asked? place = none) :
    Relation.ReflTransGen Directory.Counts place.files (step.after directory place).files := by
  obtain ⟨deed, replies, now⟩ := step
  cases deed with
  | download name force =>
    have hfetching := Option.map_eq_none_iff.1 h
    rw [after, work, place_download, hfetching]
  | fetch name retries => cases h
  | ingest others file single => exact counted_ingest _ directory file single ⟨place, replies, ""⟩

/-- A step that asks for a file downloads it, and then only counts. -/
theorem counted_download (directory : String) {place : Place} {step : Step} {name : String}
    {retries : Int} {e : Exchange} (h : step.asked? place = some (name, retries, e)) :
    e.files = place.files ∧ Relation.ReflTransGen Directory.Counts
      ((Transfer.download name retries step.now).after e).files
      (step.after directory place).files := by
  obtain ⟨deed, replies, now⟩ := step
  cases deed with
  | download name' force =>
    obtain ⟨d, hfetching, hasked⟩ := Option.map_eq_some_iff.1 h
    cases hasked
    refine ⟨congrArg Place.files (place_fetching hfetching), ?_⟩
    rw [after, work, place_download, hfetching]
    exact counted_fetch directory name now d
  | fetch name' retries' =>
    cases h
    refine ⟨rfl, ?_⟩
    rw [after_fetch]
  | ingest others file single => cases h

/-- A step leaves the version traced to what it brings, or to what it was traced to before. -/
theorem traced_after (directory : String) {place : Place} {a : Option Arrival}
    (h : Traced a place.files) (step : Step) :
    Traced ((step.arrival? place).or a) (step.after directory place).files := by
  cases hasked : step.asked? place with
  | none =>
    rw [arrival?, hasked]
    exact h.counted (counted_after directory hasked)
  | some asked =>
    obtain ⟨name, retries, e⟩ := asked
    obtain ⟨hfiles, hcounted⟩ := counted_download directory hasked
    rw [arrival?, hasked]
    rw [← hfiles] at h
    exact (h.download name retries step.now).counted hcounted

/-- After any steps the version in the record is a copy of what the last arrival brought. -/
theorem traced_allAfter (directory : String) (steps : List Step) {place : Place}
    {a : Option Arrival} (h : Traced a place.files) :
    Traced ((lastArrival directory steps place).or a) (allAfter directory steps place).files := by
  induction steps generalizing place a with
  | nil => exact h
  | cons step steps ih =>
    have hrest := ih (traced_after directory h step)
    rw [← Option.or_assoc] at hrest
    exact hrest

end Step

/-! ## Downloads that find the data to be current -/

/-- The data is found to be current if it is not stale and its state can be told, for which
the published build is asked for once more. -/
theorem isCurrent_eq_true {d : Desk} :
    let e := Exchange.start d.replies d.place.files
    (isCurrent.run.run d).1 = .ok true ↔ Transfer.isStale.outcome e = .ok false ∧
      ∃ status count, Transfer.status.outcome
          (.start (Transfer.isStale.after e).replies d.place.files) = .ok status ∧
        groupedValue status.printingCount = .ok count := by
  intro e
  have he : e = Exchange.start d.replies d.place.files := rfl
  have hfiles : d.place.files = (Transfer.isStale.after e).files :=
    Transfer.moves_isStale (Transfer.sameFiles_follow metaAddress) e
  have hprint : ∀ s d, (printLine s).run.run d =
      (.ok (), { d with output := d.output ++ (s ++ "\n") }) := fun _ _ => rfl
  unfold isCurrent
  rw [run_bind, hprint]
  dsimp only
  rw [run_bind, run_transfer, ← he]
  dsimp only
  rw [hfiles]
  rcases Transfer.isStale.outcome e with f | _ | _
  · simp
  · simp only [Bool.false_eq_true, if_false, true_and]
    rw [run_bind, run_transfer]
    dsimp only
    cases Transfer.status.outcome
      (.start (Transfer.isStale.after e).replies (Transfer.isStale.after e).files) with
    | error f => simp
    | ok status =>
      dsimp only
      cases hcount : groupedValue status.printingCount with
      | error f => simp [hcount, shaped, need, Except.mapError]
      | ok count => exact iff_of_true rfl ⟨status, count, rfl, hcount⟩
  · exact iff_of_false (fun h => by cases h) (by simp)

/-- A download that succeeds without fetching its file has found the data to be current. -/
theorem isCurrent_of_skipped {directory name : String} {now : Timestamp} {d d' : Desk}
    (hskips : fetching? false d = none)
    (h : (download directory name false now).run.run d = (.ok (), d')) :
    isCurrent.run.run d = (.ok true, d') := by
  unfold fetching? at hskips
  rw [if_neg Bool.false_ne_true] at hskips
  unfold download reported at h
  simp only [Bool.false_eq_true, if_false] at h
  rw [run_tryCatch, run_bind] at h
  generalize isCurrent.run.run d = r at hskips h ⊢
  obtain ⟨r, d''⟩ := r
  rcases r with e | _ | _
  · cases h
  · cases hskips
  · cases h
    rfl

theorem skipped_of_isCurrent {d d' : Desk} (h : isCurrent.run.run d = (.ok true, d')) :
    fetching? false d = none ∧ ∀ directory name now,
      (download directory name false now).run.run d = (.ok (), d') := by
  constructor
  · rw [fetching?, if_neg Bool.false_ne_true, h]
  · intro directory name now
    unfold download reported
    simp only [Bool.false_eq_true, if_false]
    rw [run_tryCatch, run_bind, h]
    rfl

/-- Whether a build of the given version is published. -/
def Publishes (version : String) (e : Exchange) : Prop := ∃ published,
  Transfer.build.outcome e = .ok published ∧ published.memberOf "version" = .ok (.text version)

/-- With the published version in a readable record the data is found to be current, if the build
is published for both times that it is asked for. -/
theorem isCurrent_of_published {files : Directory} {tables : Tables} {replies : List Reply}
    {fs : List (String × Value)} {version : String}
    (hreadable : files.unreadable? Levels.usual.staleness = none ∧
      files.unreadable? Levels.usual.status = none) (hgiven : files.given? = some (.object fs))
    (hversion : Value.lookup "version" fs = some (.text version)) (hne : version ≠ "")
    (hstamp : (∃ s, Value.lookup "downloaded_at" fs = some (.text s)) ∨
      Value.lookup "downloaded_at" fs = none)
    (hcount : (Value.lookup "printing_count" fs).getD (.int 0) = .int 0)
    (hfirst : Publishes version (.start replies files))
    (hsecond : Publishes version
      (.start (Transfer.build.after (.start replies files)).replies files)) :
    ∃ d, isCurrent.run.run ⟨⟨files, tables⟩, replies, ""⟩ = (.ok true, d) := by
  obtain ⟨moment, hmoment⟩ := Transfer.exists_fetchedAt hstamp
  have htruthy : (Value.text version).truthy = true := by simpa [Value.truthy] using hne
  have hsame : (Value.text version).same (.text version) = true := by
    simp [Value.same, Value.sameScalar, Value.magnitude?]
  have hholds : files.Holds (.text version) :=
    ⟨_, hgiven, by rw [Value.memberOf_object, hversion]; rfl⟩
  have hfresh : ∀ {replies}, Publishes version (.start replies files) →
      Transfer.isStale.outcome (.start replies files) = .ok false := by
    rintro replies ⟨published, hbuild, hnewest⟩
    exact Transfer.isStale_eq_false.2
      ⟨hreadable.1, _, published, _, hholds, htruthy, hbuild, hnewest, htruthy, hsame⟩
  have hstatus : Transfer.status.outcome
      (.start (Transfer.isStale.after (.start replies files)).replies files) =
        .ok ⟨moment, .int 0, .text version, false⟩ := by
    have hreading : ∀ replies, (Exchange.start replies files).files.reading
        (Exchange.start replies files).levels.status = .ok (some (.object fs)) :=
      fun _ => Directory.reading_eq_ok.2 ⟨hreadable.2, hgiven⟩
    rw [Transfer.after_isStale hreadable.1 hholds htruthy, Transfer.outcome_status, hreading,
      ok_bind]
    simp only [hmoment, hfresh hsecond, Value.memberOr, Value.memberOf, hversion, hcount]
    rfl
  have hcurrent : (isCurrent.run.run ⟨⟨files, tables⟩, replies, ""⟩).1 = .ok true :=
    isCurrent_eq_true.2 ⟨hfresh hfirst, _, "0", hstatus, by cbv⟩
  exact ⟨_, Prod.ext hcurrent rfl⟩

/-- After a download that came through, a download of any name is skipped as long as the
version that is published stays, even if the file was never taken in. -/
theorem isCurrent_of_recorded {name name' version : String} {retries : Int} {e : Exchange}
    {published : Value} (now : Timestamp)
    (harrival : Transfer.arrival? name retries e = some (.recorded name' published))
    (hversion : published.memberOf "version" = .ok (.text version)) (hne : version ≠ "")
    {files : Directory} (hfiles : ((Transfer.download name retries now).after e).files = files)
    (hreadable : files.unreadable? Levels.usual.staleness = none ∧
      files.unreadable? Levels.usual.status = none)
    {replies : List Reply} (hfirst : Publishes version (.start replies files))
    (hsecond : Publishes version
      (.start (Transfer.build.after (.start replies files)).replies files)) (tables : Tables) :
    ∃ d, isCurrent.run.run ⟨⟨files, tables⟩, replies, ""⟩ = (.ok true, d) := by
  obtain ⟨version', date, hversion', -, hgiven⟩ := Directory.given?_download harrival now
  rw [hversion] at hversion'
  cases hversion'
  rw [hfiles] at hgiven
  exact isCurrent_of_published hreadable hgiven rfl hne (.inl ⟨_, rfl⟩) rfl hfirst hsecond

/-! ## What a skip goes back to -/

/-- An answer that publishes a build, and that is stored as a file if one was asked for. -/
def firstBuild : Reply := .response ⟨200, [], "\x7b\"version\": \"1\"\x7d"⟩

theorem build_firstBuild (replies : List Reply) (files : Directory) :
    Transfer.build.outcome (.start (firstBuild :: replies) files) =
        .ok (.object [("version", .text "1")]) ∧
      (Transfer.build.after (.start (firstBuild :: replies) files)).replies = replies := by
  constructor <;> cbv

theorem publishes_firstBuild (replies : List Reply) (files : Directory) :
    Publishes "1" (.start (firstBuild :: replies) files) :=
  ⟨_, (build_firstBuild replies files).1, rfl⟩

/-- The answers of two builds are used up one by one. -/
theorem publishes_again (files : Directory) : Publishes "1"
    (.start (Transfer.build.after (.start [firstBuild, firstBuild] files)).replies files) := by
  rw [(build_firstBuild [firstBuild] files).2]
  exact publishes_firstBuild [] files

/-- A file is fetched while the first build is published. -/
def fetched : Step :=
  ⟨.fetch "LEA" 3, [firstBuild, firstBuild], ⟨2025, 1, 2, 3, 4, 5, 6, some 0, false⟩⟩

theorem isCurrent_fetched : ∃ d, isCurrent.run.run
    ⟨fetched.after "data" ⟨.empty, .empty⟩, [firstBuild, firstBuild], ""⟩ = (.ok true, d) := by
  have harrival : Transfer.arrival? "LEA" 3 (.start [firstBuild, firstBuild] .empty) =
      some (.recorded "LEA" (.object [("version", .text "1")])) := by cbv
  rw [fetched, Step.after_fetch]
  exact isCurrent_of_recorded _ harrival rfl (by decide) rfl ⟨by decide +kernel, by decide +kernel⟩
    (publishes_firstBuild _ _) (publishes_again _) _

/-- **When a download is skipped.** In a directory that started without a record, and in which no
file has the name of the record, a download that is not forced succeeds without fetching its file
only if it finds the data to be current, and it finds so only if the last file that arrived came
with a build of the version that is published now. If that version is a text, that build had the
same text; else it had a value that, once written and read, is the same. -/
theorem arrived_of_skipped {directory name : String} {steps : List Step} {start : Place}
    {now : Timestamp} {d d' : Desk} (hnames : ∀ step ∈ steps, step.deed.name? ≠ some "metadata")
    (hskips : fetching? false d = none)
    (h : (download directory name false now).run.run d = (.ok (), d'))
    (hstart : start.files.given? = none) (hd : d.place = Step.allAfter directory steps start) :
    isCurrent.run.run d = (.ok true, d') ∧ d'.place = d.place ∧
    ∃ fetchedName build brought left published newest,
      Step.lastArrival directory steps start = some (.recorded fetchedName build) ∧
      build.memberOf "version" = .ok brought ∧
      Transfer.build.outcome (.start d.replies d.place.files) = .ok published ∧
      published.memberOf "version" = .ok newest ∧
      newest.truthy = true ∧ brought.Copied left ∧ newest.same left = true ∧
      ∀ s, newest = .text s → brought = .text s := by
  have hcurrent := isCurrent_of_skipped hskips h
  have hplace := place_isCurrent d
  rw [hcurrent] at hplace
  refine ⟨hcurrent, hplace.symm, ?_⟩
  obtain ⟨hstale, -⟩ := isCurrent_eq_true.1 (congrArg Prod.fst hcurrent)
  obtain ⟨-, left, published, newest, hholds, hleft, hbuild, hnewest, htruthy, hsame⟩ :=
    Transfer.isStale_eq_false.1 hstale
  have htraced := Step.traced_allAfter directory steps (Traced.of_none none hstart)
  rw [← hd, Option.or_none] at htraced
  obtain ⟨arrival, brought, harrival, hbrought, hcopied⟩ :=
    htraced left hholds (Value.ne_null_of_truthy hleft)
  obtain ⟨fetchedName, build, rfl⟩ := Step.lastArrival_recorded hnames harrival
  refine ⟨fetchedName, build, brought, left, published, newest, harrival, hbrought, hbuild, hnewest,
    htruthy, hcopied, hsame, ?_⟩
  rintro s rfl
  have htext := Value.eq_text_of_same hsame
  rw [htext] at hcopied
  exact Value.eq_text_of_copied hcopied

/-- The skip after a file of another name was fetched goes back to the build that was
published then. -/
theorem arrived_fetched :
    let place := fetched.after "data" ⟨.empty, .empty⟩
    ∃ d, (download "data" "LEB" false fetched.now).run.run
        ⟨place, [firstBuild, firstBuild], ""⟩ = (.ok (), d) ∧ d.place = place ∧
      ∃ name build, Step.lastArrival "data" [fetched] ⟨.empty, .empty⟩ =
        some (.recorded name build) ∧ build.memberOf "version" = .ok (.text "1") := by
  obtain ⟨d, hd⟩ := isCurrent_fetched
  obtain ⟨hskips, hdone⟩ := skipped_of_isCurrent hd
  have hdone := hdone "data" "LEB" fetched.now
  have hplace : Step.allAfter "data" [fetched] ⟨.empty, .empty⟩ =
      fetched.after "data" ⟨.empty, .empty⟩ := by
    rw [Step.allAfter, List.foldl_cons, List.foldl_nil]
  -- from here on it does not matter what the place holds
  generalize fetched.after "data" ⟨.empty, .empty⟩ = place at *
  have hempty : (Place.mk .empty .empty).files.given? = none := Directory.given?_empty
  have hnames : ∀ step ∈ [fetched], step.deed.name? ≠ some "metadata" := by
    rw [List.forall_mem_singleton]
    decide
  obtain ⟨-, hsame, name, build, brought, left, published, newest, harrival, hbrought, hbuild,
    hnewest, -, -, -, htext⟩ := arrived_of_skipped hnames hskips hdone hempty hplace.symm
  rw [(build_firstBuild _ _).1] at hbuild
  cases hbuild
  cases hnewest
  exact ⟨d, hdone, hsame, name, build, harrival, htext "1" rfl ▸ hbrought⟩

/-- Whether after a step in an empty directory a download is skipped under every name, although
nothing was taken in and for some names there is no file either. -/
def Misleads (step : Step) : Prop :=
  let place := step.after "data" ⟨.empty, .empty⟩
  let desk : Desk := ⟨place, [firstBuild, firstBuild], ""⟩
  place.files.read? "LEB.json" = none ∧ place.tables = Tables.empty ∧
    fetching? false desk = none ∧ ∃ d, isCurrent.run.run desk = (.ok true, d) ∧
      ∀ name, (download "data" name false step.now).run.run desk = (.ok (), d)

theorem misleads_of_isCurrent {name : String} {replies : List Reply} {now : Timestamp}
    (hname : storedName name ≠ "LEB.json")
    (h : ∃ d, isCurrent.run.run ⟨Step.after "data" ⟨.empty, .empty⟩ ⟨.fetch name 3, replies, now⟩,
      [firstBuild, firstBuild], ""⟩ = (.ok true, d)) :
    Misleads ⟨.fetch name 3, replies, now⟩ := by
  obtain ⟨d, hd⟩ := h
  obtain ⟨hskips, hdone⟩ := skipped_of_isCurrent hd
  refine ⟨?_, ?_, hskips, d, hd, fun name => hdone "data" name now⟩
  · rw [Step.after_fetch]
    exact Directory.read?_congr (Transfer.find?_download_ne 3 now _ hname.symm (by decide))
  · rw [Step.after_fetch]

/-- A download is skipped although no file of its name was ever fetched, or although the file
was never taken in: it is enough that a file of any name was fetched while the same build was
published. -/
theorem skipped_unfetched : Misleads fetched :=
  misleads_of_isCurrent (by decide) isCurrent_fetched

end CardArchive.Cli
