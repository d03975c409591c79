import CardArchive.Proofs.Download.Arrivals
import CardArchive.Proofs.Download.Status

/-!
# Where the version in the record comes from

The record holds the version that the last download brought. It is written and read again
whenever an import puts its number of printings into the record, which leaves a version as it
is but for floating point numbers in it. Nothing else changes the version, so the data counts
as current only if the published build has the version of the last arrival.

## What this module delivers

* `Value.Copied`: what is left of a value that was written and read any number of times.
* `Directory.Holds`: the version in the record.
* `Counts`: directories whose record got other numbers of printings.
* `Traced`: the version in the record is a copy of what an arrival brought;
  `traced_download`, `traced_counts`: how it stays so.
* `isStale_eq_false`: when the data is not stale.
-/

set_option autoImplicit false

namespace CardArchive

/-! ## Copies of a value -/

/-- Whether a value is what is left of another one that was written and read any number of
times. -/
def Value.Copied (v w : Value) : Prop := ∃ k, Value.reread^[k] v = w

namespace Value

theorem Copied.refl (v : Value) : v.Copied v := ⟨0, rfl⟩

theorem Copied.reread {v w : Value} (h : v.Copied w) : v.Copied w.reread := by
  obtain ⟨k, rfl⟩ := h
  exact ⟨k + 1, Function.iterate_succ_apply' _ _ _⟩

/-- A text is left of nothing else than itself. -/
theorem eq_text_of_reread {v : Value} {s : String} (h : v.reread = .text s) : v = .text s := by
  cases v with
  | text t => exact h
  | float x =>
    obtain ⟨y, hy, -⟩ := Json.readScalar_float x
    rw [Value.reread, hy] at h
    cases h
  | _ => cases h

theorem eq_text_of_copied {v : Value} {s : String} (h : v.Copied (.text s)) : v = .text s := by
  obtain ⟨k, h⟩ := h
  induction k with
  | zero => exact h
  | succ k ih =>
    rw [Function.iterate_succ_apply'] at h
    exact ih (eq_text_of_reread h)

/-- A text is the same as no other value. -/
theorem eq_text_of_same {v : Value} {s : String} (h : (Value.text s).same v = true) :
    v = .text s := by
  cases v with
  | text t =>
    have hst : s = t := by simpa [Value.same, Value.sameScalar, Value.magnitude?] using h
    rw [hst]
  | float x =>
    cases hx : Number.exact x <;>
      simp [Value.same, Value.sameScalar, Value.magnitude?, hx] at h
  | _ => simp [Value.same, Value.sameScalar, Value.magnitude?] at h

/-- Only a missing value is left as a missing one. -/
theorem ne_null_of_reread {v : Value} (h : v.reread ≠ .null) : v ≠ .null := by
  rintro rfl
  exact h rfl

theorem ne_null_of_truthy {v : Value} (h : v.truthy = true) : v ≠ .null := by
  rintro rfl
  cases h

end Value

/-! ## The version in the record -/

namespace Directory

/-- Whether the record of a directory holds a version. -/
def Holds (f : Directory) (version : Value) : Prop :=
  ∃ record, f.given? = some record ∧ record.memberOf "version" = .ok version

theorem given?_congr {f g : Directory} (h : f.read? recordName = g.read? recordName) :
    f.given? = g.given? := by
  rw [given?, given?, record?, record?, h]

theorem given?_of_missing {f : Directory} (h : f.read? recordName = none) : f.given? = none := by
  rw [given?, record?, h]
  rfl

theorem given?_of_content {f : Directory} {content : String} {v : Value}
    (h : f.read? recordName = some content) (hread : Json.readText content = .ok v) :
    f.given? = if v.truthy then some v else none := by
  rw [given?, record?, h, Option.bind_some, hread, Option.filter_some]

/-- A record is read as something settled. -/
theorem settled_of_given? {f : Directory} {record : Value} (h : f.given? = some record) :
    record.Settled := by
  have hrecord := (Option.filter_eq_some_iff.1 h).1
  obtain ⟨content, -, hread⟩ := Option.bind_eq_some_iff.1 hrecord
  split at hread
  · rename_i v hv
    cases hread
    exact Json.settled_of_readText hv
  · cases hread

/-- A written record is read back. -/
theorem given?_writeRecord {f : Directory} {fs : List (String × Value)}
    (hsettled : (Value.object fs).Settled) (hfs : fs ≠ [])
    (h : f.read? recordName = some (Json.write (.object fs))) :
    f.given? = some (.object (rereadFields fs)) := by
  rw [given?_of_content h (Json.readText_write hsettled), Value.reread]
  obtain ⟨field, rest, rfl⟩ := List.exists_cons_of_ne_nil hfs
  rfl

/-- The version in a written record is what is left of the one that was written. -/
theorem eq_of_holds_written {f : Directory} {fs : List (String × Value)} {version : Value}
    (hsettled : (Value.object fs).Settled) (hfs : fs ≠ [])
    (h : f.read? recordName = some (Json.write (.object fs))) (hholds : f.Holds version) :
    version = ((Value.lookup "version" fs).getD .null).reread := by
  obtain ⟨record, hrecord, hversion⟩ := hholds
  rw [given?_writeRecord hsettled hfs h] at hrecord
  cases hrecord
  rw [Value.memberOf_object, lookup_rereadFields] at hversion
  cases hversion
  cases Value.lookup "version" fs <;> rfl

/-- The record after a download that came through is what is left of the one it wrote. -/
theorem given?_download {name name' : String} {retries : Int} {e : Exchange} {published : Value}
    (harrival : Transfer.arrival? name retries e = some (.recorded name' published))
    (now : Timestamp) : ∃ version date, published.memberOf "version" = .ok version ∧
      published.memberOf "date" = .ok date ∧
      ((Transfer.download name retries now).after e).files.given? = some (.object
        [("file", .text (storedName name)), ("downloaded_at", .text now.text),
          ("version", version.reread), ("date", date.reread), ("printing_count", .int 0)]) := by
  have hrecord := Transfer.record_download name retries now e
  rw [harrival] at hrecord
  obtain ⟨hsettled, record, hnew, hwritten⟩ := hrecord
  obtain ⟨version, date, hversion, hdate, rfl⟩ := Transfer.newRecord_eq_ok.1 hnew
  have hnull : Value.null.Settled := trivial
  have hbrought := settled_of_memberOr hsettled hnull hversion
  have hday := settled_of_memberOr hsettled hnull hdate
  refine ⟨version, date, hversion, hdate, given?_writeRecord ?_ (List.cons_ne_nil _ _) hwritten⟩
  exact ⟨by simp, trivial, trivial, hbrought, hday, trivial, trivial⟩

theorem content_of_planted {name content : String} {retries : Int} {e : Exchange}
    (harrival : Transfer.arrival? name retries e = some (.planted content)) (now : Timestamp) :
    ((Transfer.download name retries now).after e).files.read? recordName = some content := by
  have hrecord := Transfer.record_download name retries now e
  rw [harrival] at hrecord
  exact hrecord

/-- One directory is another one whose record got a number of printings. -/
def Counts (f g : Directory) : Prop :=
  ∃ count levels : Nat, f.updateCount (.int count) levels = .ok g

/-- A number of printings is put into the record that is given, or into a new one. -/
theorem Counts.exists_fields {f g : Directory} (h : f.Counts g) : ∃ fs, ∃ count : Nat,
    (f.given? = some (.object fs) ∨ f.given? = none ∧ fs = []) ∧
      g = f.writeRecord (.object (Value.setField "printing_count" (.int count) fs)) := by
  obtain ⟨count, levels, h⟩ := h
  obtain ⟨given, hreading, h⟩ := bind_eq_ok.1 h
  obtain ⟨-, rfl⟩ := reading_eq_ok.1 hreading
  obtain ⟨record, hrecord, h⟩ := bind_eq_ok.1 h
  rw [shaped_eq_ok] at hrecord
  split at h
  · cases h
  cases h
  cases hgiven : f.given? with
  | none =>
    rw [hgiven, Option.getD_none] at hrecord
    cases hrecord
    exact ⟨[], count, .inr ⟨rfl, rfl⟩, rfl⟩
  | some v =>
    rw [hgiven, Option.getD_some] at hrecord
    cases v with
    | object fs =>
      cases hrecord
      exact ⟨fs, count, .inl rfl, rfl⟩
    | _ => cases hrecord

end Directory

/-! ## Traces -/

/-- Whether the version in the record of a directory is a copy of what an arrival brought. -/
def Traced (a : Option Arrival) (f : Directory) : Prop := ∀ version, f.Holds version →
  version ≠ .null → ∃ arrival brought, a = some arrival ∧ arrival.version = .ok brought ∧
    brought.Copied version

namespace Traced

variable {a : Option Arrival} {f g : Directory}

theorem congr (hf : Traced a f)
    (h : g.read? Directory.recordName = f.read? Directory.recordName) : Traced a g := by
  intro version hholds hne
  rw [Directory.Holds, Directory.given?_congr h] at hholds
  exact hf version hholds hne

/-- Without a record there is nothing to trace. -/
theorem of_none (a : Option Arrival) (h : f.given? = none) : Traced a f := by
  rintro version ⟨record, hrecord, -⟩
  rw [h] at hrecord
  cases hrecord

/-- A number of printings leaves the version as it is, but for being written and read. -/
theorem counts (hf : Traced a f) (h : f.Counts g) : Traced a g := by
  intro version hholds hne
  obtain ⟨fs, count, hgiven, rfl⟩ := h.exists_fields
  have hsettled : (Value.object fs).Settled := by
    rcases hgiven with hgiven | ⟨-, rfl⟩
    · exact Directory.settled_of_given? hgiven
    · exact ⟨List.nodup_nil, trivial⟩
  have hne' : Value.setField "printing_count" (.int count) fs ≠ [] := by
    cases fs with
    | nil => exact List.cons_ne_nil _ _
    | cons field rest => unfold Value.setField; split <;> exact List.cons_ne_nil _ _
  have hcount : (Value.int count).Settled := trivial
  have hversion := Directory.eq_of_holds_written (settled_setField hcount hsettled) hne'
    (Directory.read?_write_self Directory.fits_recordName _ _) hholds
  rw [Value.lookup_setField_ne (by decide)] at hversion
  subst hversion
  have hne := Value.ne_null_of_reread hne
  rcases hgiven with hgiven | ⟨-, rfl⟩
  · obtain ⟨arrival, brought, harrival, hbrought, hcopied⟩ :=
      hf _ ⟨_, hgiven, Value.memberOf_object _ _⟩ hne
    exact ⟨arrival, brought, harrival, hbrought, hcopied.reread⟩
  · exact absurd rfl hne

theorem counted (hf : Traced a f) (h : Relation.ReflTransGen Directory.Counts f g) :
    Traced a g := by
  induction h with
  | refl => exact hf
  | tail _ hlast ih => exact ih.counts hlast

/-- What a download brings is traced to it, and without an arrival the trace stays. -/
theorem download {e : Exchange} (hf : Traced a e.files) (name : String) (retries : Int)
    (now : Timestamp) :
    Traced ((Transfer.arrival? name retries e).or a)
      ((Transfer.download name retries now).after e).files := by
  cases harrival : Transfer.arrival? name retries e with
  | none =>
    have hrecord := Transfer.record_download name retries now e
    rw [harrival] at hrecord
    rw [Option.none_or]
    rcases hrecord with hnone | hsame
    · exact of_none a (Directory.given?_of_missing (by rw [Directory.read?, hnone]; rfl))
    · exact hf.congr (Directory.read?_congr hsame)
  | some arrival =>
    rw [Option.some_or]
    cases arrival with
    | recorded name' published =>
      obtain ⟨brought, date, hbrought, -, hgiven⟩ := Directory.given?_download harrival now
      rintro version ⟨record, hrecord, hversion⟩ -
      rw [hgiven] at hrecord
      cases hrecord
      cases hversion
      exact ⟨_, brought, rfl, hbrought, (Value.Copied.refl brought).reread⟩
    | planted content =>
      have hrecord := Directory.content_of_planted harrival now
      rintro version ⟨record, hgiven, hversion⟩ -
      refine ⟨_, version, rfl, ?_, .refl version⟩
      rw [Arrival.version]
      cases hread : Json.readText content with
      | error problem =>
        rw [Directory.given?, Directory.record?, hrecord, Option.bind_some, hread] at hgiven
        cases hgiven
      | ok v =>
        rw [Directory.given?_of_content hrecord hread] at hgiven
        split at hgiven
        · cases hgiven
          exact hversion
        · cases hgiven

end Traced

/-! ## Staleness -/

namespace Transfer

/-- The data is not stale exactly if the record can be read and holds a version, and the published
build has the same one. -/
theorem isStale_eq_false {e : Exchange} : isStale.outcome e = .ok false ↔
    e.files.unreadable? e.levels.staleness = none ∧
    ∃ version published newest, e.files.Holds version ∧ version.truthy = true ∧
      build.outcome e = .ok published ∧ published.memberOf "version" = .ok newest ∧
      newest.truthy = true ∧ newest.same version = true := by
  have hcompared : ∀ version, compared version e = .ok false ↔ ∃ published newest,
      build.outcome e = .ok published ∧ published.memberOf "version" = .ok newest ∧
        newest.truthy = true ∧ newest.same version = true := by
    intro version
    unfold compared
    cases build.outcome e with
    | error d => dsimp only; split <;> simp
    | ok published =>
      dsimp only
      unfold differs
      rw [bind_eq_ok]
      simp
  rw [outcome_isStale, bind_eq_ok]
  constructor
  · rintro ⟨given, hreading, hstale⟩
    obtain ⟨hreadable, rfl⟩ := Directory.reading_eq_ok.1 hreading
    obtain ⟨version, hversion, hstale⟩ := bind_eq_ok.1 hstale
    rw [shaped_eq_ok] at hversion
    split at hstale
    · rename_i htruthy
      obtain ⟨published, newest, hnewest⟩ := (hcompared version).1 hstale
      refine ⟨hreadable, version, published, newest, ?_, htruthy, hnewest⟩
      split at hversion
      · rename_i record hrecord
        exact ⟨record, hrecord, hversion⟩
      · cases hversion
        cases htruthy
    · cases hstale
  · rintro ⟨hreadable, version, published, newest, ⟨record, hrecord, hversion⟩, htruthy, hnewest⟩
    refine ⟨some record, Directory.reading_eq_ok.2 ⟨hreadable, hrecord⟩,
      bind_eq_ok.2 ⟨version, shaped_eq_ok.2 hversion, ?_⟩⟩
    rw [if_pos htruthy]
    exact (hcompared version).2 ⟨published, newest, hnewest⟩

/-- If the record can be read and holds a version, the published build is asked for. -/
theorem after_isStale {e : Exchange} {version : Value}
    (hreadable : e.files.unreadable? e.levels.staleness = none) (h : e.files.Holds version)
    (htruthy : version.truthy = true) : isStale.after e = build.after e := by
  obtain ⟨record, hrecord, hversion⟩ := h
  unfold isStale
  rw [after_bind, outcome_get]
  dsimp only [after_get]
  rw [Directory.reading_eq_ok.2 ⟨hreadable, hrecord⟩, after_bind, outcome_ofExcept]
  dsimp only
  rw [after_bind, outcome_ofExcept, shaped_eq_ok.2 hversion, after_ofExcept, after_ofExcept]
  simp only [htruthy, Bool.not_true, Bool.false_eq_true, if_false]
  have hmap : (some <$> build : Transfer (Option Value)) =
      build >>= fun v => pure (some v) := (bind_pure_comp _ _).symm
  rw [hmap, after, run_bind, run_tryCatch, run_bind, after]
  generalize build.run.run e = r
  obtain ⟨r, e'⟩ := r
  cases r with
  | ok published => exact after_ofExcept e' (differs version published)
  | error d =>
    dsimp only
    cases isHarmless d <;> rfl

end Transfer

end CardArchive
