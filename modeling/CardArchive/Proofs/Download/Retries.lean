import CardArchive.Proofs.Download.Arrivals
import Mathlib

/-!
# How often a file is asked for

A download makes one attempt, and as many more as there are retries while each of them fails on
the way or at the disk. The first attempt that comes through, or fails in another way, is the
last one. The pauses double from one to the next, and the record is written after a success
only.

Before another attempt the file is taken away. Where the disk refuses that, since the name is too
long or a directory has it, the first attempt is the last one.

## What this module delivers

* `run_download_of_published`: a download while a build is published.
* `download_attempts`: how many attempts a download makes, how it ends, and what it leaves.
* `download_longName`: a file that can not be taken away is not asked for again.
-/

set_option autoImplicit false

namespace CardArchive.Transfer

/-- The address of a file whose name is safe. -/
theorem fileAddress_of_isSafeName {name : String} (h : isSafeName name = true) :
    fileAddress name = .ok (addressBase ++ "/" ++ storedName name) := by
  rw [fileAddress, if_pos h]

/-- While a build with fields is published, a download is its attempts and the record, which is
written unless something stands in the way. -/
theorem run_download_of_published {name address : String} {e : Exchange} {published : Value}
    (haddress : fileAddress name = .ok address) (hbuild : build.outcome e = .ok published)
    (hobject : published.isObject = true) (retries : Int) (now : Timestamp) :
    ∃ record, newRecord (storedName name) now published = .ok record ∧
      (download name retries now).run.run e =
        match (attempts address (storedName name) retries).run.run (build.after e) with
        | (.ok _, e') => match e.files.obstacle? Directory.recordName with
          | some o => (.error (.transfer (refusal o)), e')
          | none => (.ok (storedName name), { e' with files := e'.files.writeRecord record })
        | (.error d, e') => (.error d, e') := by
  obtain ⟨record, hrecord⟩ := newRecord_of_isObject hobject (storedName name) now
  have hrun : build.run.run e = (.ok published, build.after e) := Prod.ext hbuild rfl
  have hobstacle := sameObstacle_attempts address (storedName name) Directory.recordName retries
    (build.after e)
  refine ⟨record, hrecord, ?_⟩
  rw [run_download, haddress]
  dsimp only
  rw [hrun]
  dsimp only
  generalize (attempts address (storedName name) retries).run.run (build.after e) = r
    at hobstacle ⊢
  obtain ⟨r, e'⟩ := r
  have hfree : e'.files.obstacle? Directory.recordName =
      e.files.obstacle? Directory.recordName := by
    rw [← files_build e]
    exact hobstacle.symm
  cases r with
  | error d => rfl
  | ok u =>
    obtain ⟨record', hrecord', hkeep⟩ := run_keep_of_isObject hobject (storedName name) now e'
    cases hrecord.symm.trans hrecord'
    dsimp only
    rw [hkeep, hfree]
    cases e.files.obstacle? Directory.recordName <;> rfl

/-- What is reported of a file whose last attempt has ended so. -/
def reported (retries : Int) : Except Failure Unit → Except Failure Unit
  | .ok u => .ok u
  | .error d => .error (if isRetried d then exhausted (retries + 1) (some d) else d)

/-- Unless something stands in the way, there is a last attempt, which is not made again or is the
last one allowed. -/
theorem attempts_last (address : String) {name : String} {retries : Int} (hretries : 0 ≤ retries)
    {e : Exchange} (hfree : e.files.obstacle? name = none) :
    let tried := attempt address name e
    ∃ last : Nat, last ≤ retries ∧ (∀ k < last, isRepeated (tried k) = true) ∧
      (isRepeated (tried last) = true → last = retries) ∧
      (attempts address name retries).run.run e =
        (reported retries (tried last), afterAttempts address name e (last + 1)) := by
  intro tried
  rcases attempts_cases address retries hfree with ⟨j, hj, hbefore, hlast, hrun⟩ | ⟨hall, hrun⟩
  · refine ⟨j, hj, hbefore, fun hrepeated => ?_, ?_⟩
    · rw [hlast] at hrepeated
      cases hrepeated
    · rw [hrun]
      dsimp only [tried]
      cases hr : attempt address name e j with
      | ok u => rfl
      | error d =>
        have hd : isRetried d = false := by
          rw [hr] at hlast
          exact hlast
        rw [reported, if_neg (by rw [hd]; exact Bool.false_ne_true)]
  · obtain ⟨n, rfl⟩ := Int.eq_ofNat_of_zero_le hretries
    have hn : ((n : Int) + 1).toNat = n + 1 := by omega
    refine ⟨n, le_refl _, fun k hk => hall k (by omega), fun _ => rfl, ?_⟩
    rw [hrun, hn]
    have hlast := hall n (le_refl _)
    dsimp only [tried, lastFailure]
    cases hr : attempt address name e n with
    | ok u =>
      rw [hr] at hlast
      cases hlast
    | error d =>
      have hd : isRetried d = true := by
        rw [hr] at hlast
        exact hlast
      rw [reported, if_pos hd, failure?]

/-- **The attempts of a download.** While a build with fields is published, a download of a safe
name makes a first attempt and at most as many more as there are retries, unless its file can not
be taken away. Each but the last fails on the way or at the disk. The last one is the first that
does not, or the one with which the retries are used up. If it comes through, so does the
download, and the record is written, unless a directory stands where the record is: then the
download fails at the disk. If it fails in another way, so does the download. If the
attempts are used up, the download fails with their number and the last failure, as one of the
disk exactly if that failure was. The pauses between the attempts are one, two, four and so on,
and what is left is what the attempts have left, with a record after a success only.

If the name is too long for the disk or belongs to a directory, there is one attempt. If that
fails on the way or at the disk, the download fails for the name, however many retries there are;
otherwise it fails like the attempt. There is no pause, and the files stay as they are. -/
theorem download_attempts {name : String} {retries : Int} {now : Timestamp} {e : Exchange}
    {published : Value} (hname : isSafeName name = true)
    (hmetadata : name ≠ "metadata") (hretries : 0 ≤ retries)
    (hbuild : build.outcome e = .ok published) (hobject : published.isObject = true) :
    let address := addressBase ++ "/" ++ storedName name
    let tried := attempt address (storedName name) (build.after e)
    let left := afterAttempts address (storedName name) (build.after e)
    let x := download name retries now
    (e.files.obstacle? (storedName name) = none →
      ∃ last : Nat, last ≤ retries ∧ (∀ k < last, isRepeated (tried k) = true) ∧
        (isRepeated (tried last) = true → last = retries) ∧
        (x.after e).pauses = e.pauses ++ (List.range last).map (fun i => 2 ^ i) ∧
        (tried last = .ok () →
          (e.files.obstacle? Directory.recordName = none → x.outcome e = .ok (storedName name) ∧
            ∃ record, newRecord (storedName name) now published = .ok record ∧
              x.after e =
                { left (last + 1) with files := (left (last + 1)).files.writeRecord record } ∧
              (x.after e).files.read? Directory.recordName = some (Json.write record)) ∧
          ∀ o, e.files.obstacle? Directory.recordName = some o →
            x.outcome e = .error (.transfer (refusal o)) ∧ x.after e = left (last + 1) ∧
            (x.after e).files.find? Directory.recordName =
              e.files.find? Directory.recordName) ∧
        ∀ d, tried last = .error d →
          x.outcome e = .error (if isRetried d then
            .transfer (.exhausted (retries + 1) d.message (isOnDisk d)) else d) ∧
          x.after e = left (last + 1) ∧
          (x.after e).files.find? Directory.recordName =
            e.files.find? Directory.recordName) ∧
    ∀ o, e.files.obstacle? (storedName name) = some o → ∃ d, tried 0 = .error d ∧
      x.outcome e = .error (if isRetried d then .transfer (refusal o) else d) ∧
      x.after e = left 1 ∧ (x.after e).pauses = e.pauses ∧ (x.after e).files = e.files := by
  intro address tried left x
  obtain ⟨record, hrecord, hrun⟩ := run_download_of_published (fileAddress_of_isSafeName hname)
    hbuild hobject retries now
  -- the enquiry about the build neither pauses nor writes
  have hfiles := files_build e
  have hbuildPauses : e.pauses = (build.after e).pauses :=
    moves_build (samePauses_follow metaAddress) e
  have hpauses : ∀ last : Nat,
      (left (last + 1)).pauses = e.pauses ++ (List.range last).map fun i => 2 ^ i := by
    intro last
    rw [hbuildPauses]
    exact pauses_afterAttempts _ _ _ _
  refine ⟨fun hfree => ?_, fun o hobstacle => ?_⟩
  · rw [← hfiles] at hfree
    obtain ⟨last, hle, hbefore, hlast, hattempts⟩ := attempts_last address hretries hfree
    rw [hattempts] at hrun
    have hkept : (left (last + 1)).files.find? Directory.recordName =
        e.files.find? Directory.recordName := by
      rw [← hfiles]
      exact spares_afterAttempts _ _ _ _ _ fun hfile =>
        hmetadata (storedName_eq_recordName.1 hfile.symm)
    refine ⟨last, hle, hbefore, hlast, ?_⟩
    dsimp only [x, outcome, after]
    rw [hrun]
    cases hr : attempt address (storedName name) (build.after e) last with
    | ok u =>
      have hend : tried last = .ok u := hr
      rw [hend]
      cases e.files.obstacle? Directory.recordName with
      | some o =>
        refine ⟨hpauses last, fun _ => ⟨nofun, fun o' ho => ?_⟩,
          fun d hd => by cases hd⟩
        obtain rfl := Option.some.inj ho
        exact ⟨rfl, rfl, hkept⟩
      | none =>
        refine ⟨hpauses last, fun _ => ⟨fun _ => ⟨rfl, record, hrecord, rfl, ?_⟩, nofun⟩,
          fun d hd => by cases hd⟩
        exact Directory.read?_write_self Directory.fits_recordName _ _
    | error d =>
      have hend : tried last = .error d := hr
      rw [hend]
      refine ⟨hpauses last, fun hd => absurd hd (by simp), fun d' hd => ?_⟩
      cases hd
      exact ⟨rfl, rfl, hkept⟩
  · rw [← hfiles] at hobstacle
    obtain ⟨d, hd, hattempts⟩ := attempts_of_obstacle hobstacle address hretries
    rw [hattempts] at hrun
    have hend : (left 1).pauses = e.pauses := by simpa using hpauses 0
    have hstay : (left 1).files = e.files :=
      (files_afterAttempts_of_obstacle hobstacle 1).trans hfiles
    refine ⟨d, hd, ?_⟩
    dsimp only [x, outcome, after]
    rw [hrun]
    exact ⟨rfl, rfl, hend, hstay⟩

/-- What answers a download: a build is published, the first attempt is refused for now, the
second one breaks off at the disk, and the third one comes through. -/
def thirdTry : Exchange := .start
  [.response ⟨200, [], "\x7b\"version\": \"1\"\x7d"⟩, .response ⟨503, [], ""⟩,
    .broken [] "\x7b" (.disk "no space left"), .response ⟨200, [], "\x7b\x7d"⟩] .empty

/-- The moment at which it is made. -/
def someDay : Timestamp := ⟨2025, 1, 2, 3, 4, 5, 6, some 0, false⟩

theorem tried_thirdTry :
    let tried := attempt "https://mtgjson.com/api/v5/LEA.json" "LEA.json" (build.after thirdTry)
    isRepeated (tried 0) = true ∧ isRepeated (tried 1) = true ∧ tried 2 = .ok () := by
  refine ⟨?_, ?_, ?_⟩ <;> cbv

/-- Two retries are enough for two failures, with pauses of one and two seconds. -/
theorem download_thirdTry :
    isSafeName "LEA" = true ∧ build.outcome thirdTry = .ok (.object [("version", .text "1")]) ∧
      (download "LEA" 2 someDay).outcome thirdTry = .ok "LEA.json" ∧
      ((download "LEA" 2 someDay).after thirdTry).pauses = [1, 2] := by
  have hname : isSafeName "LEA" = true := by decide
  have hbuild : build.outcome thirdTry = .ok (.object [("version", .text "1")]) := by cbv
  obtain ⟨hfirst, hsecond, hthird⟩ := tried_thirdTry
  obtain ⟨hattempts, -⟩ :=
    @download_attempts "LEA" 2 someDay thirdTry _ hname (by decide) (by decide) hbuild rfl
  obtain ⟨last, hle, -, hlast, hpauses, hend, -⟩ := hattempts (by decide)
  have hcount : last = 0 ∨ last = 1 ∨ last = 2 := by omega
  rcases hcount with rfl | rfl | rfl
  · cases hlast hfirst
  · cases hlast hsecond
  · exact ⟨hname, hbuild, ((hend hthird).1 (by decide)).1, hpauses⟩

/-- A name of three hundred letters. -/
def longName : String := String.ofList (List.replicate 300 'A')

/-- What answers a download: a build is published, and two attempts are refused for now. -/
def twiceBusy : Exchange := .start
  [.response ⟨200, [], "\x7b\"version\": \"1\"\x7d"⟩, .response ⟨503, [], ""⟩,
    .response ⟨503, [], ""⟩] .empty

theorem outcome_save_of_busy (address name : String) {e : Exchange} {rest : List Reply}
    (h : e.replies = .response ⟨503, [], ""⟩ :: rest) : (save address name).outcome e =
      .error (.transfer (.status ("Server error '503' for url '" ++ address ++ "'"))) := by
  have hfollow : (follow address).outcome e = .ok ⟨⟨503, [], ""⟩, none⟩ := by
    rw [follow, requestLimit, followFrom, outcome_bind, outcome_request, h]
    rfl
  rw [save, outcome_bind, hfollow, ok_bind, outcome_bind, outcome_ofExcept]
  rfl

/-- A long name is a safe one. The first of two attempts is refused by the other side, and there
is no second one, since the disk does not take the name. -/
theorem download_longName :
    isSafeName longName = true ∧
      build.outcome twiceBusy = .ok (.object [("version", .text "1")]) ∧
      attempt (addressBase ++ "/" ++ storedName longName) (storedName longName)
        (build.after twiceBusy) 0 = .error (.transfer (.status
          ("Server error '503' for url '" ++ (addressBase ++ "/" ++ storedName longName) ++
            "'"))) ∧
      (download longName 1 someDay).outcome twiceBusy =
        .error (.transfer (.disk "File name too long")) ∧
      ((download longName 1 someDay).after twiceBusy).pauses = [] := by
  have hname : isSafeName longName = true := by
    have hletters : longName.toList = List.replicate 300 'A' := String.toList_ofList
    rw [isSafeName, hletters]
    decide +kernel
  have hbuild : build.outcome twiceBusy = .ok (.object [("version", .text "1")]) := by cbv
  have hreplies : (build.after twiceBusy).replies = .response ⟨503, [], ""⟩ ::
      [.response ⟨503, [], ""⟩] := by cbv
  have hfirst : attempt (addressBase ++ "/" ++ storedName longName) (storedName longName)
      (build.after twiceBusy) 0 = .error (.transfer (.status
        ("Server error '503' for url '" ++ (addressBase ++ "/" ++ storedName longName) ++
          "'"))) := by
    rw [attempt_zero]
    exact outcome_save_of_busy _ _ hreplies
  have hobstacle : (build.after twiceBusy).files.obstacle? (storedName longName) =
      some .longName := by
    rw [files_build]
    decide +kernel
  obtain ⟨record, -, hrun⟩ := run_download_of_published (fileAddress_of_isSafeName hname) hbuild
    rfl 1 someDay
  obtain ⟨d, hd, hattempts⟩ := attempts_of_obstacle hobstacle
    (addressBase ++ "/" ++ storedName longName) (by decide : (0 : Int) ≤ 1)
  rw [hattempts] at hrun
  cases hfirst.symm.trans hd
  have hpauses : (build.after twiceBusy).pauses = [] := by cbv
  refine ⟨hname, hbuild, hfirst, ?_, ?_⟩
  · rw [outcome, hrun]
    rfl
  · rw [after, hrun]
    dsimp only
    rw [pauses_afterAttempts, hpauses]
    rfl

end CardArchive.Transfer
