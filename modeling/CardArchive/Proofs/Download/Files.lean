import CardArchive.Cli.Path
import CardArchive.Proofs.Download.Retries
import CardArchive.Proofs.Download.Versions
import Mathlib

/-!
# The files after a download

A download changes its own file and the record, and no other. If it comes through, its file
holds the body of the response, and the record tells of it. Where the file has the name of the
record, the record is all that is left.

A download that fails does not write the record, but it need not leave its own file alone. A
failure that another attempt may follow takes away whatever is stored under the name, and a file
that was stored stays if the build can not be recorded.

## What this module delivers

* `pathParts_storedName`: the file of a safe name is right in the directory.
* `Brings`: the published build and the response that a download stores.
* `files_of_done`, `files_of_failed`: the files after a download.
* `files_metadata`, `files_lost_left`: a file that is not what was sent, and files that a failed
  download has lost and left.
-/

set_option autoImplicit false

namespace CardArchive.Transfer

/-! ## Names -/

theorem isNameChar_of_isSafeName {name : String} (h : isSafeName name = true) :
    ∀ c ∈ name.toList, isNameChar c = true := by
  unfold isSafeName at h
  simp only [Bool.and_eq_true, List.all_eq_true] at h
  exact h.2

/-- The path of the file of a safe name in a directory is that of the directory with one more
part, and that part is no step back. -/
theorem pathParts_storedName {name : String} (h : isSafeName name = true) (directory : String) :
    Cli.pathParts (directory ++ "/" ++ storedName name) =
      Cli.pathParts directory ++ [(storedName name).toList] ∧ storedName name ≠ ".." := by
  have hlist : (storedName name).toList = name.toList ++ ".json".toList := by simp [storedName]
  have hslash : '/' ∉ (storedName name).toList := by
    rw [hlist, List.mem_append, not_or]
    refine ⟨fun hmem => ?_, by decide⟩
    exact absurd (isNameChar_of_isSafeName h '/' hmem) (by decide)
  -- the extension alone is longer than the parts that stay or step back
  have hne : ∀ cs : List Char, cs.length < 5 → (storedName name).toList ≠ cs := by
    intro cs hshort hsame
    rw [← hsame, hlist, List.length_append] at hshort
    exact absurd hshort (Nat.not_lt.2 (Nat.le_add_left 5 _))
  constructor
  · have hpath : (directory ++ "/" ++ storedName name).toList =
        directory.toList ++ '/' :: (storedName name).toList := by simp
    have hkept : (!(storedName name).toList.isEmpty && (storedName name).toList != ['.']) =
        true := by simp [hne [] (by decide), hne ['.'] (by decide)]
    unfold Cli.pathParts
    rw [hpath, Address.splitOn_append, Address.splitOn_of_notMem hslash, List.filter_append,
      List.filter_singleton, hkept]
    rfl
  · exact fun hback => hne ['.', '.'] (by decide) (congrArg String.toList hback)

/-- All files are as they were if the only one that may have changed is. -/
theorem Spares.same_iff {name : String} {e e' : Exchange} (h : Spares name e e') :
    (∀ other, e'.files.find? other = e.files.find? other) ↔
      e'.files.find? name = e.files.find? name := by
  refine ⟨fun hsame => hsame name, fun hsame other => ?_⟩
  by_cases hother : other = name
  · rw [hother]
    exact hsame
  · exact h other hother

/-! ## What a download brings -/

/-- What a download brings: the build that is published, and the response that one of its
attempts stores. -/
def Brings (name : String) (retries : Int) (e : Exchange) (published : Value) (r : Response) :
    Prop :=
  ∃ address k, fileAddress name = .ok address ∧ build.outcome e = .ok published ∧
    Reaches address (storedName name) retries (build.after e) k r

section

variable {name : String} {retries : Int} {e : Exchange} {published published' : Value}
  {r r' : Response}

theorem Brings.isSafeName (h : Brings name retries e published r) : isSafeName name = true := by
  obtain ⟨address, k, haddress, -⟩ := h
  rw [← fileAddress_isOk, haddress]
  rfl

/-- A download brings one response at most. -/
theorem Brings.unique (h : Brings name retries e published r)
    (h' : Brings name retries e published' r') : published = published' ∧ r = r' := by
  obtain ⟨address, k, haddress, hbuild, hreaches⟩ := h
  obtain ⟨address', k', haddress', hbuild', hreaches'⟩ := h'
  cases haddress.symm.trans haddress'
  cases hbuild.symm.trans hbuild'
  exact ⟨rfl, (hreaches.unique hreaches').2⟩

theorem delivered?_eq_some {content : String} :
    delivered? name retries e = some (published, content) ↔
      ∃ r, Brings name retries e published r ∧ r.body = content := by
  constructor
  · intro h
    unfold delivered? at h
    split at h
    · rename_i address published' haddress hbuild
      dsimp only at h
      split at h
      · rename_i hok
        obtain ⟨k, r, hreaches, hafter, hcontent⟩ := attempts_ok hok
        rw [hafter, hcontent] at h
        cases h
        exact ⟨r, ⟨address, k, haddress, hbuild, hreaches⟩, rfl⟩
      · cases h
    · cases h
  · rintro ⟨r, ⟨address, k, haddress, hbuild, hreaches⟩, rfl⟩
    obtain ⟨j, r', hreaches', hafter, hcontent⟩ := attempts_ok hreaches.outcome
    obtain ⟨-, rfl⟩ := hreaches.unique hreaches'
    unfold delivered?
    rw [haddress, hbuild]
    dsimp only
    rw [hreaches.outcome]
    dsimp only
    rw [hafter, hcontent]
    rfl

/-- The file is stored as it was sent, before the record is written if the build can be
recorded. -/
theorem Brings.download (h : Brings name retries e published r) (now : Timestamp) :
    let x := download name retries now
    ∃ e', e'.files.read? (storedName name) = some r.body ∧ Spares (storedName name) e e' ∧
      ((isRecordable e.files published = false ∧ (∃ d, x.outcome e = .error d) ∧
          (x.after e).files = e'.files) ∨
        (isRecordable e.files published = true ∧ x.outcome e = .ok (storedName name) ∧
          ∃ record, newRecord (storedName name) now published = .ok record ∧
            (x.after e).files = e'.files.writeRecord record)) := by
  have hdelivered := delivered?_eq_some.2 ⟨r, h, rfl⟩
  rcases download_cases name retries now e with
    ⟨hnone, -⟩ | ⟨published', content, e', hsome, -, hcontent, hspares, hend⟩
  · rw [hnone] at hdelivered
    cases hdelivered
  · cases hsome.symm.trans hdelivered
    exact ⟨e', hcontent, hspares, hend⟩

/-- A download that brings nothing fails and leaves the other files alone. -/
theorem download_of_not_brings (h : ∀ published r, ¬Brings name retries e published r)
    (now : Timestamp) :
    let x := download name retries now
    (∃ d, x.outcome e = .error d) ∧ Spares (storedName name) e (x.after e) ∧
      (Stumbles name retries e → (x.after e).files.find? (storedName name) = none) ∧
      (¬Stumbles name retries e → (x.after e).files.find? (storedName name) =
        e.files.find? (storedName name)) := by
  rcases download_cases name retries now e with
    ⟨-, hnothing⟩ | ⟨published, content, e', hsome, -⟩
  · exact hnothing
  · obtain ⟨r, hbrings, -⟩ := delivered?_eq_some.1 hsome
    exact absurd hbrings (h published r)

/-- A download that comes through brings a build that can be recorded, and the record of it is
written after the file. -/
theorem exists_brings_of_done {stored : String} {now : Timestamp}
    (h : (download name retries now).outcome e = .ok stored) :
    ∃ published r record, ∃ e' : Exchange, Brings name retries e published r ∧
      isRecordable e.files published = true ∧ stored = storedName name ∧
      e'.files.read? stored = some r.body ∧ newRecord stored now published = .ok record ∧
      ((download name retries now).after e).files = e'.files.writeRecord record := by
  by_cases hbrings : ∃ published r, Brings name retries e published r
  · obtain ⟨published, r, hbrings⟩ := hbrings
    obtain ⟨e', hcontent, -, ⟨-, ⟨d, hfailed⟩, -⟩ | ⟨hobject, hdone, record, hrecord, hfiles⟩⟩ :=
      hbrings.download now
    · cases h.symm.trans hfailed
    · cases h.symm.trans hdone
      exact ⟨published, r, record, e', hbrings, hobject, rfl, hcontent, hrecord, hfiles⟩
  · obtain ⟨⟨d, hfailed⟩, -⟩ := download_of_not_brings
      (fun published r hbrings' => hbrings ⟨published, r, hbrings'⟩) now
    cases h.symm.trans hfailed

/-- Nothing is brought if every attempt fails so that another one may follow. -/
theorem not_brings_of_repeated {address : String} (haddress : fileAddress name = .ok address)
    (hall : ∀ k : Nat, k ≤ retries →
      isRepeated (attempt address (storedName name) (build.after e) k) = true)
    (published : Value) (r : Response) : ¬Brings name retries e published r := by
  rintro ⟨address', k, haddress', -, hreaches⟩
  cases haddress.symm.trans haddress'
  have hlast := hreaches.last
  rw [hall k hreaches.allowed] at hlast
  cases hlast

end

/-! ## Downloads that come through -/

/-- **The files after a download that came through.** The file is right in the directory, the
record tells of it and of the published build, and every other file is as it was. The file holds
the body of the response that an attempt has stored, unless it has the name of the record: then
the record has replaced it. -/
theorem files_of_done {name stored : String} {retries : Int} {now : Timestamp} {e : Exchange}
    (h : (download name retries now).outcome e = .ok stored) :
    let f := ((download name retries now).after e).files
    stored = storedName name ∧ stored ≠ ".." ∧
      (∀ directory, Cli.pathParts (directory ++ "/" ++ stored) =
        Cli.pathParts directory ++ [stored.toList]) ∧
      ∃ published version date r, Brings name retries e published r ∧
        published.memberOf "version" = .ok version ∧ published.memberOf "date" = .ok date ∧
        let record := Value.object [("file", .text stored), ("downloaded_at", .text now.text),
          ("version", version), ("date", date), ("printing_count", .int 0)]
        f.read? Directory.recordName = some (Json.write record) ∧
        f.given? = some record.reread ∧
        (f.read? stored = some r.body ↔ name ≠ "metadata" ∨ r.body = Json.write record) ∧
        ∀ other, other ≠ stored → other ≠ Directory.recordName →
          f.find? other = e.files.find? other := by
  obtain ⟨published, r, record, e', hbrings, hobject, rfl, hcontent, hrecord, hfiles⟩ :=
    exists_brings_of_done h
  have harrival : arrival? name retries e = some (.recorded name published) := by
    rw [arrival?, delivered?_eq_some.2 ⟨r, hbrings, rfl⟩, Option.bind_some, hobject]
    rfl
  obtain ⟨version, date, hversion, hdate, hgiven⟩ := Directory.given?_download harrival now
  have hwritten : ((download name retries now).after e).files.read? Directory.recordName =
      some (Json.write record) := by
    rw [hfiles]
    exact Directory.read?_write_self Directory.fits_recordName _ _
  obtain ⟨version', date', hversion', hdate', rfl⟩ := newRecord_eq_ok.1 hrecord
  cases hversion.symm.trans hversion'
  cases hdate.symm.trans hdate'
  refine ⟨rfl, (pathParts_storedName hbrings.isSafeName "").2,
    fun directory => (pathParts_storedName hbrings.isSafeName directory).1,
    published, version, date, r, hbrings, hversion, hdate, hwritten, hgiven, ?_, ?_⟩
  · -- the record is written last, so it wins where both have one name
    rw [ne_eq, ← storedName_eq_recordName]
    by_cases hname : storedName name = Directory.recordName
    · have hreplaced :=
        (congrArg ((download name retries now).after e).files.read? hname).trans hwritten
      rw [hreplaced, Option.some_inj]
      exact ⟨fun hbody => .inr hbody.symm, fun hor => (hor.resolve_left (not_not.2 hname)).symm⟩
    · refine iff_of_true ?_ (.inl hname)
      rw [hfiles]
      exact (Directory.read?_write_ne hname _ _).trans hcontent
  · exact fun other => find?_download_ne retries now e

/-- Two attempts fail and the third one comes through, where an earlier download of the file and
one of another file are stored. -/
def again : Exchange := { thirdTry with files := .ofTexts [("LEA.json", "[]"), ("LEB.json", "[]")] }

theorem tried_again :
    let tried := attempt "https://mtgjson.com/api/v5/LEA.json" "LEA.json" (build.after again)
    isRepeated (tried 0) = true ∧ isRepeated (tried 1) = true ∧ tried 2 = .ok () := by
  refine ⟨?_, ?_, ?_⟩ <;> cbv

theorem brings_again :
    Brings "LEA" 2 again (.object [("version", .text "1")]) ⟨200, [], "\x7b\x7d"⟩ := by
  obtain ⟨hfirst, hsecond, hthird⟩ := tried_again
  refine ⟨"https://mtgjson.com/api/v5/LEA.json", 2, by decide, by cbv, by decide, ?_, hthird,
    by cbv, rfl⟩
  intro i hi
  have hcount : i = 0 ∨ i = 1 := by omega
  rcases hcount with rfl | rfl
  · exact hfirst
  · exact hsecond

/-- The earlier download of the file is replaced, and the other file stays. -/
theorem files_again :
    let f := ((download "LEA" 2 someDay).after again).files
    (download "LEA" 2 someDay).outcome again = .ok "LEA.json" ∧
      f.read? "LEA.json" = some "\x7b\x7d" ∧ f.read? "LEB.json" = some "[]" := by
  have hdone : (download "LEA" 2 someDay).outcome again = .ok "LEA.json" := by cbv
  obtain ⟨-, -, -, published, version, date, r, hbrings, -, -, -, -, hstored, hothers⟩ :=
    files_of_done hdone
  obtain ⟨-, rfl⟩ := hbrings.unique brings_again
  exact ⟨hdone, hstored.2 (.inl (by decide)),
    Directory.read?_congr (hothers "LEB.json" (by decide) (by decide))⟩

/-- What answers a download: a build is published, and a file is sent. -/
def sent : Exchange := .start
  [.response ⟨200, [], "\x7b\"version\": \"1\"\x7d"⟩, .response ⟨200, [], "\x7b\x7d"⟩] .empty

/-- A safe name whose file is the record: the download comes through, and what it has stored is
lost. -/
theorem files_metadata :
    isSafeName "metadata" = true ∧
      (download "metadata" 0 someDay).outcome sent = .ok "metadata.json" ∧
      Brings "metadata" 0 sent (.object [("version", .text "1")]) ⟨200, [], "\x7b\x7d"⟩ ∧
      ((download "metadata" 0 someDay).after sent).files.read? "metadata.json" ≠
        some "\x7b\x7d" := by
  refine ⟨by decide, by cbv, ⟨"https://mtgjson.com/api/v5/metadata.json", 0, by decide, by cbv,
    by decide, by decide, by cbv, by cbv, rfl⟩, fun hbody => ?_⟩
  have hsize : (((download "metadata" 0 someDay).after sent).files.read? "metadata.json").map
      String.utf8ByteSize = some 129 := by cbv
  rw [hbody] at hsize
  exact absurd hsize (by decide)

/-! ## Downloads that fail -/

/-- **The files after a download that failed.** Every file but its own is as it was. A file that
was stored before the build could not be recorded stays. Otherwise the file is gone if the first
attempt was one that is made again and nothing stands in the way, and else it is as it was. So
nothing is lost or left behind exactly if a response that is stored is what the file held
before, and an attempt that takes the file away finds none. -/
theorem files_of_failed {name : String} {retries : Int} {now : Timestamp} {e : Exchange}
    {d : Failure} (h : (download name retries now).outcome e = .error d) :
    let f := ((download name retries now).after e).files
    let stored := storedName name
    (∀ other, other ≠ stored → f.find? other = e.files.find? other) ∧
      (∀ published r, Brings name retries e published r →
        isRecordable e.files published = false ∧ f.read? stored = some r.body) ∧
      ((∀ published r, ¬Brings name retries e published r) →
        (Stumbles name retries e → f.find? stored = none) ∧
        (¬Stumbles name retries e → f.find? stored = e.files.find? stored)) ∧
      ((∀ other, f.find? other = e.files.find? other) ↔
        (∀ published r, Brings name retries e published r →
          e.files.read? stored = some r.body) ∧
        ((∀ published r, ¬Brings name retries e published r) → Stumbles name retries e →
          e.files.find? stored = none)) := by
  intro f stored
  by_cases hbrings : ∃ published r, Brings name retries e published r
  -- the file was stored, and only the record has failed
  · obtain ⟨published, r, hbrings⟩ := hbrings
    obtain ⟨e', hcontent, hspares, ⟨hobject, -, hfiles⟩ | ⟨-, hdone, -⟩⟩ := hbrings.download now
    swap
    · cases h.symm.trans hdone
    rw [← hfiles] at hcontent
    have hothers : Spares stored e ((download name retries now).after e) := by
      intro other hne
      rw [hfiles, hspares other hne]
    refine ⟨hothers, fun published' r' hbrings' => ?_,
      fun hnothing => absurd hbrings (hnothing published r), ?_⟩
    · obtain ⟨rfl, rfl⟩ := hbrings.unique hbrings'
      exact ⟨hobject, hcontent⟩
    · rw [hothers.same_iff]
      refine ⟨fun hsame => ⟨fun published' r' hbrings' => ?_,
        fun hnothing => absurd hbrings (hnothing published r)⟩,
        fun hbefore => (Directory.read?_eq_some.1 hcontent).trans
          (Directory.read?_eq_some.1 (hbefore.1 published r hbrings)).symm⟩
      obtain ⟨rfl, rfl⟩ := hbrings.unique hbrings'
      exact (Directory.read?_congr hsame).symm.trans hcontent
  -- nothing was stored, but something may have been taken away
  · have hnothing : ∀ published r, ¬Brings name retries e published r :=
      fun published r hbrings' => hbrings ⟨published, r, hbrings'⟩
    obtain ⟨-, hspares, hgone, hkept⟩ := download_of_not_brings hnothing now
    refine ⟨hspares, fun published r hbrings' => absurd hbrings' (hnothing published r),
      fun _ => ⟨hgone, hkept⟩, ?_⟩
    rw [hspares.same_iff]
    constructor
    · intro hsame
      exact ⟨fun published r hbrings' => absurd hbrings' (hnothing published r),
        fun _ hstumbles => hsame.symm.trans (hgone hstumbles)⟩
    · rintro ⟨-, hfree⟩
      by_cases hstumbles : Stumbles name retries e
      · exact (hgone hstumbles).trans (hfree hnothing hstumbles).symm
      · exact hkept hstumbles

theorem stumbles_again {retries : Int} (h : 0 ≤ retries) : Stumbles "LEA" retries again :=
  ⟨"https://mtgjson.com/api/v5/LEA.json", .object [("version", .text "1")], by decide, by cbv, h,
    by decide, tried_again.1⟩

theorem not_brings_again {retries : Int} (h : retries ≤ 1) (published : Value) (r : Response) :
    ¬Brings "LEA" retries again published r := by
  have haddress : fileAddress "LEA" = .ok "https://mtgjson.com/api/v5/LEA.json" := by decide
  refine not_brings_of_repeated haddress (fun k hk => ?_) published r
  have hcount : k = 0 ∨ k = 1 := by omega
  rcases hcount with rfl | rfl
  · exact tried_again.1
  · exact tried_again.2.1

/-- With one attempt less the download fails. The other file stays, and the earlier download of
the file does not. -/
theorem files_again_failed : ∃ d, (download "LEA" 1 someDay).outcome again = .error d ∧
    ((download "LEA" 1 someDay).after again).files.find? "LEA.json" = none ∧
      ((download "LEA" 1 someDay).after again).files.read? "LEB.json" = some "[]" := by
  have hnothing := @not_brings_again 1 (le_refl 1)
  obtain ⟨⟨d, hfailed⟩, -⟩ := download_of_not_brings hnothing someDay
  obtain ⟨hothers, -, hstored, -⟩ := files_of_failed hfailed
  exact ⟨d, hfailed, (hstored hnothing).1 (stumbles_again (by decide)),
    Directory.read?_congr (hothers "LEB.json" (by decide))⟩

/-- What answers a download: the published build is no object, and a file is sent. -/
def sentWithoutFields : Exchange := .start
  [.response ⟨200, [], "\x7b\"data\": []\x7d"⟩, .response ⟨200, [], "\x7b\x7d"⟩] .empty

/-- A download that is refused before anything is written loses the earlier download of the file,
and one whose build can not be recorded leaves a new file. -/
theorem files_lost_left :
    (∃ d, (download "LEA" 0 someDay).outcome again = .error d) ∧
      again.files.read? "LEA.json" = some "[]" ∧
      ((download "LEA" 0 someDay).after again).files.find? "LEA.json" = none ∧
    (∃ d, (download "LEA" 0 someDay).outcome sentWithoutFields = .error d) ∧
      sentWithoutFields.files.read? "LEA.json" = none ∧
      ((download "LEA" 0 someDay).after sentWithoutFields).files.read? "LEA.json" =
        some "\x7b\x7d" := by
  obtain ⟨hfailed, -, hgone, -⟩ :=
    download_of_not_brings (@not_brings_again 0 (by decide)) someDay
  exact ⟨hfailed, by decide, hgone (stumbles_again (le_refl 0)), ⟨_, by cbv⟩, by decide, by cbv⟩

end CardArchive.Transfer
