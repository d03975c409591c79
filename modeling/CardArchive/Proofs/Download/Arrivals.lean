import CardArchive.Proofs.Download.Course
import CardArchive.Proofs.Json.RoundTrip

/-!
# What a download leaves in the directory

A file is stored by the attempt that comes through, and an attempt that fails may take away
what an earlier download has stored under the name. The record is replaced after that, if the
published build has fields and no further directory stands in the way. A file of the record's
own name is stored where the record is, so it takes the place of the record even if the build can
not be recorded.

## What this module delivers

* `delivered?`: the build and the file of a download that came through.
* `Stumbles` and `download_cases`: the directory after a download.
* `isRecordable`: whether a build can be recorded.
* `Arrival` and `arrival?`: what replaces the record.
* `storedName_eq_recordName`: the one name whose file is the record.
* `arrival?_of_ne_metadata`: under any other name, an arrival is a download that came through.
* `record_download`: the record after a download.
-/

set_option autoImplicit false

namespace CardArchive

namespace Transfer

variable {address name : String}

/-! ## Arrivals -/

/-- The build and the content of a file that was asked for, if it was delivered. -/
def delivered? (name : String) (retries : Int) (e : Exchange) : Option (Value × String) :=
  match fileAddress name, build.outcome e with
  | .ok address, .ok published =>
    let x := attempts address (storedName name) retries
    match x.outcome (build.after e) with
    | .ok _ =>
      ((x.after (build.after e)).files.read? (storedName name)).map fun s => (published, s)
    | .error _ => none
  | _, _ => none

end Transfer

/-- What replaces the record of a directory: the download of a file while some build is
published, or the content of a file that is stored where the record is and whose build could
not be recorded. -/
inductive Arrival where
  | recorded (name : String) (build : Value)
  | planted (content : String)

/-- The version that an arrival brings. -/
def Arrival.version : Arrival → Except ShapeFault Value
  | recorded _ build => build.memberOf "version"
  | planted content =>
    match Json.readText content with
    | .ok v => v.memberOf "version"
    | .error _ => .ok .null

namespace Transfer

/-- Whether a build can be recorded in a directory: it has fields, and no further directory stands
where the record is. -/
def isRecordable (f : Directory) (build : Value) : Bool :=
  build.isObject && (f.obstacle? Directory.recordName).isNone

/-- What a download brings in place of the record, if anything. -/
def arrival? (name : String) (retries : Int) (e : Exchange) : Option Arrival :=
  (delivered? name retries e).bind fun d =>
    if isRecordable e.files d.1 then some (.recorded name d.1)
    else if storedName name = Directory.recordName then some (.planted d.2)
    else none

/-- Only one name has the file in which the record is. -/
theorem storedName_eq_recordName {name : String} :
    storedName name = Directory.recordName ↔ name = "metadata" := by
  constructor
  · intro h
    have hlist : name.toList ++ ".json".toList = "metadata".toList ++ ".json".toList := by
      have hsame := congrArg String.toList h
      simpa [storedName, Directory.recordName] using hsame
    exact String.toList_inj.1 (List.append_cancel_right hlist)
  · rintro rfl
    decide

theorem newRecord_eq_ok {name : String} {now : Timestamp} {build record : Value} :
    newRecord name now build = .ok record ↔ ∃ version date,
      build.memberOf "version" = .ok version ∧ build.memberOf "date" = .ok date ∧
        record = .object [("file", .text name), ("downloaded_at", .text now.text),
          ("version", version), ("date", date), ("printing_count", .int 0)] := by
  unfold newRecord
  simp only [bind_eq_ok, pure_eq_ok]
  constructor
  · rintro ⟨version, hversion, date, hdate, rfl⟩
    exact ⟨version, date, hversion, hdate, rfl⟩
  · rintro ⟨version, date, hversion, hdate, rfl⟩
    exact ⟨version, hversion, date, hdate, rfl⟩

/-- Under any name but that of the record, what arrives is recorded. -/
theorem arrival?_of_ne_metadata {name : String} (hname : name ≠ "metadata") {retries : Int}
    {e : Exchange} {a : Arrival} (h : arrival? name retries e = some a) :
    ∃ build, a = .recorded name build := by
  obtain ⟨d, -, h⟩ := Option.bind_eq_some_iff.1 h
  rw [if_neg (storedName_eq_recordName.not.2 hname)] at h
  split at h
  · cases h
    exact ⟨d.1, rfl⟩
  · cases h

/-- A record is made of any build that has fields. -/
theorem newRecord_of_isObject {build : Value} (h : build.isObject = true) (name : String)
    (now : Timestamp) : ∃ record, newRecord name now build = .ok record := by
  cases build with
  | object fs => exact ⟨_, rfl⟩
  | _ => cases h

theorem newRecord_of_not_isObject {build : Value} (h : build.isObject = false) (name : String)
    (now : Timestamp) : ∃ f, newRecord name now build = .error f := by
  cases build with
  | object fs => cases h
  | _ => exact ⟨_, rfl⟩

/-- A file whose build has fields is recorded, unless something stands in the way. -/
theorem run_keep_of_isObject {build : Value} (h : build.isObject = true) (name : String)
    (now : Timestamp) (e : Exchange) : ∃ record, newRecord name now build = .ok record ∧
      (keep name now build).run.run e = match e.files.obstacle? Directory.recordName with
        | some o => (.error (.transfer (refusal o)), e)
        | none => (.ok (), { e with files := e.files.writeRecord record }) := by
  obtain ⟨record, hrecord⟩ := newRecord_of_isObject h name now
  refine ⟨record, hrecord, ?_⟩
  rw [keep, hrecord]
  exact run_reach_bind Directory.recordName _ e

theorem isRecordable_congr {f g : Directory}
    (h : f.obstacle? Directory.recordName = g.obstacle? Directory.recordName) (build : Value) :
    isRecordable f build = isRecordable g build := by
  rw [isRecordable, isRecordable, h]

/-- Either a build can be recorded, and the record of it is written, or nothing is done. -/
theorem keep_cases (name : String) (now : Timestamp) (build : Value) (e : Exchange) :
    (isRecordable e.files build = false ∧ ∃ d, (keep name now build).run.run e = (.error d, e)) ∨
    (isRecordable e.files build = true ∧ ∃ record, newRecord name now build = .ok record ∧
      (keep name now build).run.run e =
        (.ok (), { e with files := e.files.writeRecord record })) := by
  rw [isRecordable]
  cases hobject : build.isObject with
  | false =>
    obtain ⟨f, hf⟩ := newRecord_of_not_isObject hobject name now
    refine .inl ⟨rfl, .shape f, ?_⟩
    rw [keep, hf]
    rfl
  | true =>
    obtain ⟨record, hrecord, hrun⟩ := run_keep_of_isObject hobject name now e
    rw [hrun]
    cases e.files.obstacle? Directory.recordName with
    | some o => exact .inl ⟨rfl, _, rfl⟩
    | none => exact .inr ⟨rfl, record, hrecord, rfl⟩

/-- A file is recorded once it is delivered. -/
theorem run_download (name : String) (retries : Int) (now : Timestamp) (e : Exchange) :
    (download name retries now).run.run e = match fileAddress name with
      | .error f => (.error (.transfer f), e)
      | .ok address => match build.run.run e with
        | (.error d, e') => (.error d, e')
        | (.ok published, e') =>
          match (attempts address (storedName name) retries).run.run e' with
          | (.error d, e'') => (.error d, e'')
          | (.ok _, e'') => match (keep (storedName name) now published).run.run e'' with
            | (.error d, left) => (.error d, left)
            | (.ok _, left) => (.ok (storedName name), left) := by
  unfold download
  cases fileAddress name with
  | error f => rfl
  | ok address =>
    change (build >>= _).run.run e = _
    rw [run_bind]
    dsimp only
    generalize build.run.run e = r
    obtain ⟨r, e'⟩ := r
    cases r with
    | error d => rfl
    | ok published =>
      dsimp only
      rw [run_bind]
      generalize (attempts address (storedName name) retries).run.run e' = r
      obtain ⟨r, e''⟩ := r
      cases r with
      | error d => rfl
      | ok u =>
        dsimp only
        rw [run_bind]
        generalize (keep (storedName name) now published).run.run e'' = r
        obtain ⟨r, left⟩ := r
        cases r <;> rfl

/-- What is read of the published build is settled. -/
theorem settled_build {e : Exchange} {published : Value} (h : build.outcome e = .ok published) :
    published.Settled := by
  rw [outcome_build] at h
  obtain ⟨v, hv, h⟩ := bind_eq_ok.1 h
  obtain ⟨d, -, hv⟩ := bind_eq_ok.1 hv
  obtain ⟨-, -, hv⟩ := bind_eq_ok.1 hv
  obtain ⟨-, -, hv⟩ := bind_eq_ok.1 hv
  have hsettled : v.Settled := by
    dsimp only [bodyValue] at hv
    split at hv
    · cases hv
    · split at hv
      · cases hv
        exact Json.settled_of_readRaw ‹_›
      · cases hv
  exact settled_of_memberOr hsettled hsettled (shaped_eq_ok.1 h)

/-- Whether a download makes an attempt at a file that nothing stands in the way of, and the first
one fails so that it is made again if there are more attempts left. -/
def Stumbles (name : String) (retries : Int) (e : Exchange) : Prop :=
  ∃ address published, fileAddress name = .ok address ∧ build.outcome e = .ok published ∧
    0 ≤ retries ∧ e.files.obstacle? (storedName name) = none ∧
    isRepeated (attempt address (storedName name) (build.after e) 0) = true

/-- A download leaves a file of its name if that was delivered, and a record if the build can be
recorded. If it was not delivered, an earlier file of the name is gone if the download has
stumbled. -/
theorem download_cases (name : String) (retries : Int) (now : Timestamp) (e : Exchange) :
    let x := download name retries now
    (delivered? name retries e = none ∧ (∃ d, x.outcome e = .error d) ∧
      Spares (storedName name) e (x.after e) ∧
      (Stumbles name retries e → (x.after e).files.find? (storedName name) = none) ∧
      (¬Stumbles name retries e → (x.after e).files.find? (storedName name) =
        e.files.find? (storedName name))) ∨
    ∃ published content e', delivered? name retries e = some (published, content) ∧
      build.outcome e = .ok published ∧ e'.files.read? (storedName name) = some content ∧
      Spares (storedName name) e e' ∧
      ((isRecordable e.files published = false ∧ (∃ d, x.outcome e = .error d) ∧
          (x.after e).files = e'.files) ∨
        (isRecordable e.files published = true ∧ x.outcome e = .ok (storedName name) ∧
          ∃ record, newRecord (storedName name) now published = .ok record ∧
            (x.after e).files = e'.files.writeRecord record)) := by
  have hbuildFiles := files_build e
  unfold Stumbles
  dsimp only [delivered?, outcome, after] at hbuildFiles ⊢
  rw [run_download]
  cases fileAddress name with
  | error f =>
    refine .inl ⟨rfl, ⟨_, rfl⟩, fun _ _ => rfl, ?_, fun _ => rfl⟩
    rintro ⟨address, -, haddress, -⟩
    cases haddress
  | ok address =>
    dsimp only
    generalize build.run.run e = r at hbuildFiles ⊢
    obtain ⟨r, e'⟩ := r
    dsimp only at hbuildFiles
    cases r with
    | error d =>
      refine .inl ⟨rfl, ⟨d, rfl⟩, spares_of_same hbuildFiles.symm, ?_, fun _ => by rw [hbuildFiles]⟩
      rintro ⟨-, published, -, hbuild, -⟩
      cases hbuild
    | ok published =>
      -- the attempts start from the files as they were, since the enquiry about the build
      -- wrote none
      have hok := @attempts_ok address (storedName name) e' retries
      have herror := @find?_attempts_error address (storedName name) e' retries
      have hattempts := spares_attemptsFrom address (storedName name)
        (retries + 1) (retries + 1).toNat 1 none e'
      have hobstacle := sameObstacle_attempts address (storedName name) Directory.recordName
        retries e'
      rw [hbuildFiles] at herror
      dsimp only [outcome, after] at hok herror ⊢
      change Spares _ _ ((attempts address (storedName name) retries).run.run e').2 at hattempts
      generalize (attempts address (storedName name) retries).run.run e' = r
        at hok herror hattempts hobstacle ⊢
      obtain ⟨r, e''⟩ := r
      have hspares : Spares (storedName name) e e'' :=
        fun other hne => (hattempts other hne).trans (by rw [hbuildFiles])
      cases r with
      | error d =>
        have hstored := herror rfl
        refine .inl ⟨rfl, ⟨d, rfl⟩, hspares, ?_, ?_⟩
        · rintro ⟨_, _, haddress, -, hretries, hfree, hfirst⟩
          cases haddress
          exact hstored.trans (if_pos ⟨hretries, hfree, hfirst⟩)
        · intro hsteady
          refine hstored.trans (if_neg fun hfirst => hsteady ?_)
          exact ⟨address, published, rfl, rfl, hfirst⟩
      | ok u =>
        have hkeep := keep_cases (storedName name) now published e''
        rw [← isRecordable_congr hobstacle published, isRecordable_congr (by rw [hbuildFiles])]
          at hkeep
        obtain ⟨k, r, -, rfl, hcontent⟩ := hok rfl
        dsimp only at hcontent ⊢
        rw [hcontent]
        refine .inr ⟨published, r.body, _, rfl, rfl, hcontent, hspares, ?_⟩
        rcases hkeep with ⟨hno, d, hrun⟩ | ⟨hyes, record, hrecord, hrun⟩
        · rw [hrun]
          exact .inl ⟨hno, ⟨d, rfl⟩, rfl⟩
        · rw [hrun]
          exact .inr ⟨hyes, rfl, record, hrecord, rfl⟩

/-- A download touches nothing but its own file and the record. -/
theorem find?_download_ne {name other : String} (retries : Int) (now : Timestamp) (e : Exchange)
    (hname : other ≠ storedName name) (hrecord : other ≠ Directory.recordName) :
    ((download name retries now).after e).files.find? other = e.files.find? other := by
  rcases download_cases name retries now e with
    ⟨-, -, hspares, -⟩ | ⟨published, content, e', -, -, -, hspares, hend⟩
  · exact hspares other hname
  · rw [← hspares other hname]
    rcases hend with ⟨-, -, hfiles⟩ | ⟨-, -, record, -, hfiles⟩
    · rw [hfiles]
    · rw [hfiles]
      exact Directory.find?_write_ne hrecord _ _

/-- The record after a download is the one that its arrival brings; without an arrival it is
the one before, or gone. -/
theorem record_download (name : String) (retries : Int) (now : Timestamp) (e : Exchange) :
    let f := ((download name retries now).after e).files
    match arrival? name retries e with
    | some (.recorded _ published) => published.Settled ∧
        ∃ record, newRecord (storedName name) now published = .ok record ∧
          f.read? Directory.recordName = some (Json.write record)
    | some (.planted content) => f.read? Directory.recordName = some content
    | none => f.find? Directory.recordName = none ∨
        f.find? Directory.recordName = e.files.find? Directory.recordName := by
  dsimp only [arrival?]
  rcases download_cases name retries now e with
    ⟨hnone, -, hspares, hstored⟩ | ⟨published, content, e', hsome, hbuild, hcontent, hspares, hend⟩
  · rw [hnone]
    by_cases hname : Directory.recordName = storedName name
    · rw [hname]
      by_cases hstumbles : Stumbles name retries e
      · exact .inl (hstored.1 hstumbles)
      · exact .inr (hstored.2 hstumbles)
    · exact .inr (hspares _ hname)
  · rw [hsome, Option.bind_some]
    rcases hend with ⟨hobject, -, hfiles⟩ | ⟨hobject, -, record, hrecord, hfiles⟩
    · rw [hobject, if_neg Bool.false_ne_true, hfiles]
      by_cases hname : storedName name = Directory.recordName
      · rw [if_pos hname]
        exact hname ▸ hcontent
      · rw [if_neg hname]
        exact .inr (hspares _ (Ne.symm hname))
    · rw [hobject, if_pos rfl, hfiles]
      exact ⟨settled_build hbuild, record, hrecord,
        Directory.read?_write_self Directory.fits_recordName _ _⟩

end Transfer

end CardArchive
