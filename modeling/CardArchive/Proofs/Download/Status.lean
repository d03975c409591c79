import CardArchive.Download.Record
import CardArchive.Proofs.Download.Outcomes

/-!
# When the state of the data can not be told

The state of the data is read from the record of the last download and, if the record has a
version, from the published build. A malformed record counts as none, and a build that can
not be fetched counts as a newer one. A record whose bytes are no text, and more lists and
objects around each other than the reader takes, are not provided for. Nor is what was read
looked at more closely: the state can not be told if the record, the published value or its
data has no fields, or if the moment of the download is given by something else than a text.

## What this module delivers

* `Directory.reading_eq_ok`, `Directory.fails_reading`: when the record can be read.
* `Unpublished`: what is not passed over when the published build is read.
* `fails_isStale`: when the comparison with the published build fails.
* `Unreported` and `fails_status`: when the state of the data can not be told.
-/

set_option autoImplicit false

namespace CardArchive

theorem Value.fails_memberOr {v : Value} {name : String} {fallback : Value} :
    Fails (v.memberOr name fallback) ↔ v.isObject = false := by
  cases v with
  | object fs => simp [memberOr, isObject]
  | _ => simp [memberOr, isObject]

theorem Value.fails_memberOf {v : Value} {name : String} :
    Fails (v.memberOf name) ↔ v.isObject = false := fails_memberOr

/-! ## The record -/

namespace Directory

variable {d : Directory} {levels : Nat}

theorem reading_eq_ok {given : Option Value} :
    d.reading levels = .ok given ↔ d.unreadable? levels = none ∧ d.given? = given := by
  unfold reading
  cases d.unreadable? levels <;> simp

theorem fails_reading :
    Fails (d.reading levels) ↔ ∃ fault, d.unreadable? levels = some fault := by
  unfold reading
  cases d.unreadable? levels <;> simp

end Directory

/-- A reader gives up on too many levels, or on an integer with too many digits. -/
theorem Json.excess?_eq_some {levels : Nat} {cs : List Char} {fault : ReadingFault}
    (h : excess? levels cs = some fault) : fault = .tooNested ∨ ∃ n, fault = .manyDigits n := by
  unfold excess? at h
  split at h
  · cases h
  · rename_i x p _
    split at h
    · split at h
      · cases h
        cases x with
        | nesting => exact .inl rfl
        | digits n => exact .inr ⟨n, rfl⟩
      · cases h
    · cases h

namespace Transfer

/-! ## The published build -/

/-- What is not passed over when the published build is read: a fault of the disk on the way,
an answer that is nested too deep, and one that is no object or whose data is none. -/
inductive Unpublished (e : Exchange) : Prop
  | disk (message : String) (h : answered e = .error (.transfer (.disk message)))
  | nested (h : answered e = .error (.reading .tooNested))
  | value (v : Value) (h : answered e = .ok v) (hv : v.isObject = false)
  | data (v w : Value) (h : answered e = .ok v) (hw : v.memberOr "data" v = .ok w)
      (hobject : w.isObject = false)

theorem bodyValue_error {levels : Nat} {body : String} {d : Failure}
    (h : bodyValue levels body = .error d) :
    d = .reading .tooNested ∨ d ≠ .reading .tooNested ∧ isHarmless d = true := by
  simp only [bodyValue] at h
  split at h
  · rename_i fault hexcess
    cases h
    rcases Json.excess?_eq_some hexcess with rfl | ⟨n, rfl⟩
    · exact .inl rfl
    · exact .inr ⟨by simp, rfl⟩
  · split at h
    · cases h
    · cases h
      exact .inr ⟨by simp, rfl⟩

/-- An answer fails on the way or as a text. -/
theorem answered_error {e : Exchange} {d : Failure} (h : answered e = .error d) :
    (∃ t, d = .transfer t) ∨ d = .reading .tooNested ∨
      d ≠ .reading .tooNested ∧ isHarmless d = true := by
  unfold answered at h
  cases hfollow : (follow metaAddress).outcome e with
  | error d' =>
    rw [hfollow] at h
    cases h
    exact .inl (follow_error hfollow)
  | ok r =>
    rw [hfollow, ok_bind] at h
    cases hwhole : r.check with
    | error t =>
      rw [hwhole] at h
      cases h
      exact .inl ⟨t, rfl⟩
    | ok u =>
      rw [hwhole] at h
      cases hcheck : r.response.check metaAddress with
      | error t =>
        rw [hcheck] at h
        cases h
        exact .inl ⟨t, rfl⟩
      | ok u =>
        rw [hcheck] at h
        exact .inr (bodyValue_error h)

/-- Of the failures on the way to an answer, those of the disk and of the stack are not passed
over. -/
theorem isHarmless_of_answered {e : Exchange} {d : Failure} (h : answered e = .error d) :
    isHarmless d = false ↔
      (∃ message, d = .transfer (.disk message)) ∨ d = .reading .tooNested := by
  rcases answered_error h with ⟨t, rfl⟩ | rfl | ⟨hne, hharmless⟩
  · cases t <;> simp [isHarmless]
  · simp [isHarmless]
  · rw [hharmless]
    refine iff_of_false (by simp) ?_
    rintro (⟨message, rfl⟩ | rfl)
    · cases hharmless
    · exact hne rfl

/-- What the comparison of a version with the published build comes to. -/
def compared (version : Value) (e : Exchange) : Except Failure Bool :=
  match build.outcome e with
  | .ok published => differs version published
  | .error d => if isHarmless d then .ok true else .error d

theorem fails_differs {version published : Value} :
    Fails (differs version published) ↔ published.isObject = false := by
  rw [differs, fails_bind, fails_shaped, Value.fails_memberOf]
  constructor
  · rintro (h | ⟨a, -, h⟩)
    · exact h
    · exact absurd h (not_fails_ok _)
  · exact Or.inl

theorem compared_of_error {version : Value} {e : Exchange} {d : Failure}
    (h : answered e = .error d) :
    compared version e = if isHarmless d then .ok true else .error d := by
  rw [compared, outcome_build, h]
  rfl

/-- An answer is opened at its data, if it has any, and compared. -/
theorem compared_of_ok {version : Value} {e : Exchange} {v : Value} (h : answered e = .ok v) :
    compared version e = shaped (v.memberOr "data" v) >>= differs version := by
  rw [compared, outcome_build, h, ok_bind]
  cases v.memberOr "data" v with
  | error f => rfl
  | ok w => rfl

theorem fails_compared {version : Value} {e : Exchange} :
    Fails (compared version e) ↔ Unpublished e := by
  constructor
  · intro hfails
    cases h : answered e with
    | error d =>
      rw [compared_of_error h] at hfails
      split at hfails
      · exact absurd hfails (not_fails_ok _)
      · rename_i hd
        rcases (isHarmless_of_answered h).1 (Bool.eq_false_iff.2 hd) with ⟨message, rfl⟩ | rfl
        · exact .disk message h
        · exact .nested h
    | ok v =>
      rw [compared_of_ok h, fails_bind, fails_shaped, Value.fails_memberOr] at hfails
      rcases hfails with hv | ⟨w, hw, hfails⟩
      · exact .value v h hv
      · exact .data v w h (shaped_eq_ok.1 hw) (fails_differs.1 hfails)
  · intro hun
    cases hun with
    | disk message h =>
      rw [compared_of_error h]
      exact fails_error _
    | nested h =>
      rw [compared_of_error h]
      exact fails_error _
    | value v h hv =>
      rw [compared_of_ok h, fails_bind, fails_shaped, Value.fails_memberOr]
      exact .inl hv
    | data v w h hw hobject =>
      rw [compared_of_ok h, fails_bind]
      exact .inr ⟨w, shaped_eq_ok.2 hw, fails_differs.2 hobject⟩

/-! ## The comparison with the record -/

/-- A record that is compared with the published build is an object with a version. -/
theorem outcome_isStale (e : Exchange) :
    isStale.outcome e = e.files.reading e.levels.staleness >>= fun given =>
      shaped (match given with
        | some record => record.memberOf "version"
        | none => .ok .null) >>= fun version =>
          if version.truthy then compared version e else .ok true := by
  unfold isStale
  rw [outcome_bind, outcome_get, ok_bind, outcome_bind, outcome_ofExcept]
  refine congrArg _ (funext fun given => ?_)
  rw [after_get, after_ofExcept, outcome_bind, outcome_ofExcept]
  refine congrArg _ (funext fun version => ?_)
  rw [after_ofExcept]
  cases hversion : version.truthy with
  | false => rfl
  | true =>
    simp only [Bool.not_true, Bool.false_eq_true, if_false, if_true]
    rw [outcome_bind, outcome_tryCatch, outcome_map, compared]
    cases build.outcome e with
    | ok published => exact outcome_ofExcept _ _
    | error d =>
      dsimp only [Except.map]
      split <;> rfl

/-- The comparison with the published build fails if the record can not be read or has no fields,
or if it has a version and the published build is not to be had. -/
theorem fails_isStale {e : Exchange} :
    Fails (isStale.outcome e) ↔
      (∃ fault, e.files.unreadable? e.levels.staleness = some fault) ∨
      ∃ record, e.files.given? = some record ∧
        (record.isObject = false ∨ ∃ version, record.memberOf "version" = .ok version ∧
          version.truthy = true ∧ Unpublished e) := by
  rw [outcome_isStale, fails_bind, Directory.fails_reading]
  cases hreadable : e.files.unreadable? e.levels.staleness with
  | some fault => simp
  | none =>
    simp only [Directory.reading_eq_ok, hreadable, true_and, exists_eq_left', reduceCtorEq,
      exists_false, false_or]
    cases e.files.given? with
    | none => simp [ok_bind, Value.truthy]
    | some record =>
      simp only [fails_bind, fails_shaped, Value.fails_memberOf, Option.some.injEq, shaped_eq_ok,
        exists_eq_left']
      refine or_congr Iff.rfl (exists_congr fun version => and_congr_right fun _ => ?_)
      cases version.truthy with
      | false => simp
      | true => simp [fails_compared]

/-! ## The state of the data -/

/-- When the state of the data can not be told: the record can not be read, at first or for the
comparison, has no fields, gives the moment of the download by something else than a text, or
has a version while the published build is not to be had. -/
inductive Unreported (e : Exchange) : Prop
  | unread (fault : ReadingFault) (h : e.files.unreadable? e.levels.status = some fault)
  | uncompared (record : Value) (h : e.files.given? = some record) (fault : ReadingFault)
      (hfault : e.files.unreadable? e.levels.staleness = some fault)
  | record (record : Value) (h : e.files.given? = some record) (hobject : record.isObject = false)
  | moment (record stamp : Value) (h : e.files.given? = some record)
      (hstamp : record.memberOf "downloaded_at" = .ok stamp) (htruthy : stamp.truthy = true)
      (htext : ∀ s, stamp ≠ .text s)
  | build (record version : Value) (h : e.files.given? = some record)
      (hversion : record.memberOf "version" = .ok version) (htruthy : version.truthy = true)
      (hbuild : Unpublished e)

theorem fails_fetchedAt {record : Value} :
    Fails (fetchedAt record) ↔ record.isObject = false ∨ ∃ stamp,
      record.memberOf "downloaded_at" = .ok stamp ∧ stamp.truthy = true ∧
        ∀ s, stamp ≠ .text s := by
  rw [fetchedAt, fails_bind, fails_shaped, Value.fails_memberOf]
  refine or_congr Iff.rfl (exists_congr fun stamp => ?_)
  rw [shaped_eq_ok]
  refine and_congr_right fun _ => ?_
  cases stamp.truthy with
  | false => simp
  | true => cases stamp <;> simp

/-- A moment that is given by a text, or not at all, is no obstacle. -/
theorem exists_fetchedAt {fs : List (String × Value)}
    (h : (∃ s, Value.lookup "downloaded_at" fs = some (.text s)) ∨
      Value.lookup "downloaded_at" fs = none) :
    ∃ moment, fetchedAt (.object fs) = .ok moment := by
  have hsure : ¬Fails (fetchedAt (.object fs)) := by
    rw [fails_fetchedAt]
    rintro (hobject | ⟨stamp, hstamp, htruthy, htext⟩)
    · cases hobject
    · rw [Value.memberOf_object] at hstamp
      cases hstamp
      rcases h with ⟨s, hs⟩ | hnone
      · exact htext s (by rw [hs]; rfl)
      · rw [hnone] at htruthy
        cases htruthy
  cases hmoment : fetchedAt (.object fs) with
  | error e => exact absurd ⟨e, hmoment⟩ hsure
  | ok moment => exact ⟨moment, rfl⟩

/-- What is known of the data is read off the record, and then compared. -/
theorem outcome_status (e : Exchange) :
    status.outcome e = e.files.reading e.levels.status >>= fun given =>
      match given with
      | none => .ok ⟨none, .int 0, .null, true⟩
      | some record => fetchedAt record >>= fun moment =>
        shaped (record.memberOr "printing_count" (.int 0)) >>= fun count =>
          shaped (record.memberOf "version") >>= fun version =>
            isStale.outcome e >>= fun stale => pure ⟨moment, count, version, stale⟩ := by
  unfold status
  rw [outcome_bind, outcome_get, ok_bind, outcome_bind, outcome_ofExcept]
  refine congrArg _ (funext fun given => ?_)
  rw [after_get, after_ofExcept]
  cases given with
  | none => rfl
  | some record =>
    simp only [outcome_bind, outcome_ofExcept, after_ofExcept]
    rfl

/-- Without a record there is nothing to ask for. -/
theorem outcome_status_of_none {e : Exchange}
    (hreadable : e.files.unreadable? e.levels.status = none) (h : e.files.given? = none) :
    status.outcome e = .ok ⟨none, .int 0, .null, true⟩ := by
  rw [outcome_status, Directory.reading_eq_ok.2 ⟨hreadable, h⟩]
  rfl

/-- The number of printings and the version are there in any record that has fields. -/
theorem fails_status_of_record {e : Exchange} {record : Value}
    (hreadable : e.files.unreadable? e.levels.status = none) (h : e.files.given? = some record) :
    Fails (status.outcome e) ↔ Fails (fetchedAt record) ∨ Fails (isStale.outcome e) := by
  rw [outcome_status, Directory.reading_eq_ok.2 ⟨hreadable, h⟩, ok_bind]
  dsimp only
  cases hmoment : fetchedAt record with
  | error d => simp [fails_bind]
  | ok moment =>
    have hobject : record.isObject ≠ false := by
      intro hobject
      exact not_fails_of_ok hmoment (fails_fetchedAt.2 (.inl hobject))
    cases record with
    | object fs => simp [Value.memberOr, Value.memberOf, ok_bind]
    | _ => exact absurd rfl hobject

/-- The state of the data can not be told exactly in these cases. -/
theorem fails_status {e : Exchange} : Fails (status.outcome e) ↔ Unreported e := by
  cases hreadable : e.files.unreadable? e.levels.status with
  | some fault =>
    refine iff_of_true ?_ (.unread fault hreadable)
    rw [outcome_status, fails_bind]
    exact .inl (Directory.fails_reading.2 ⟨fault, hreadable⟩)
  | none =>
    constructor
    · intro hfails
      cases h : e.files.given? with
      | none => exact absurd hfails (not_fails_of_ok (outcome_status_of_none hreadable h))
      | some record =>
        rw [fails_status_of_record hreadable h, fails_fetchedAt, fails_isStale] at hfails
        obtain (hobject | ⟨stamp, hstamp, htruthy, htext⟩) | ⟨fault, hfault⟩ |
          ⟨record', h', hobject | ⟨version, hversion, htruthy, hbuild⟩⟩ := hfails
        · exact .record record h hobject
        · exact .moment record stamp h hstamp htruthy htext
        · exact .uncompared record h fault hfault
        · exact .record record' h' hobject
        · exact .build record' version h' hversion htruthy hbuild
    · intro hun
      cases hun with
      | unread fault h => cases hreadable.symm.trans h
      | uncompared record h fault hfault =>
        exact (fails_status_of_record hreadable h).2 (.inr (fails_isStale.2 (.inl ⟨fault, hfault⟩)))
      | record record h hobject =>
        exact (fails_status_of_record hreadable h).2 (.inl (fails_fetchedAt.2 (.inl hobject)))
      | moment record stamp h hstamp htruthy htext =>
        exact (fails_status_of_record hreadable h).2
          (.inl (fails_fetchedAt.2 (.inr ⟨stamp, hstamp, htruthy, htext⟩)))
      | build record version h hversion htruthy hbuild =>
        exact (fails_status_of_record hreadable h).2
          (.inr (fails_isStale.2 (.inr ⟨record, h, .inr ⟨version, hversion, htruthy, hbuild⟩⟩)))

end Transfer

end CardArchive
