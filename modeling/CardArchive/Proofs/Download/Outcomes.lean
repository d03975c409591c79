import CardArchive.Download.Transfer
import CardArchive.Proofs.Stateful

/-!
# Outcomes of transfers

A transfer ends with a result or a failure, and leaves the exchange behind as it has changed
it. Both are functions of the exchange that it starts from, so a transfer of several steps
is taken apart step by step like any other computation that can fail.

## What this module delivers

* `Transfer.outcome` and `Transfer.after`: how a transfer ends.
* `outcome_bind`, `after_bind`, `outcome_tryCatch`: two steps, and a step whose failures are
  caught.
* `follow_error`: following an address fails only on the way.
* `answered` and `outcome_build`: what the published build was answered with, and what is read
  of it.
-/

set_option autoImplicit false

namespace CardArchive.Transfer

variable {α β : Type}

/-! ## Outcomes -/

/-- The result or the failure of a transfer. -/
def outcome (x : Transfer α) (e : Exchange) : Except Failure α := (x.run.run e).1

/-- The exchange after a transfer. -/
def after (x : Transfer α) (e : Exchange) : Exchange := (x.run.run e).2

section

variable (e : Exchange)

@[simp]
theorem outcome_pure (a : α) : (pure a : Transfer α).outcome e = .ok a := rfl

@[simp]
theorem outcome_ofExcept (r : Except Failure α) : (ofExcept r).outcome e = r := by
  cases r <;> rfl

@[simp]
theorem after_ofExcept (r : Except Failure α) : (ofExcept r).after e = e := by
  cases r <;> rfl

@[simp]
theorem outcome_get : (get : Transfer Exchange).outcome e = .ok e := rfl

@[simp]
theorem after_get : (get : Transfer Exchange).after e = e := rfl

/-- The second step starts from what the first one has left. -/
theorem outcome_bind (x : Transfer α) (f : α → Transfer β) :
    (x >>= f).outcome e = x.outcome e >>= fun a => (f a).outcome (x.after e) := by
  rw [outcome, run_bind, outcome, after]
  generalize x.run.run e = r
  obtain ⟨r, e'⟩ := r
  cases r <;> rfl

/-- After a failure of the first step there is no second one. -/
theorem after_bind (x : Transfer α) (f : α → Transfer β) :
    (x >>= f).after e = match x.outcome e with
      | .ok a => (f a).after (x.after e)
      | .error _ => x.after e := by
  rw [after, run_bind, outcome, after]
  generalize x.run.run e = r
  obtain ⟨r, e'⟩ := r
  cases r <;> rfl

/-- A name is refused exactly if something stands in the way. -/
theorem run_reach (name : String) : (reach name).run.run e = match e.files.obstacle? name with
      | some o => (.error (Failure.transfer (refusal o)), e)
      | none => (.ok (), e) := by
  have hreach : reach name = get >>= fun exchange => match exchange.files.obstacle? name with
      | some o => throw (Failure.transfer (refusal o))
      | none => pure () := rfl
  have hget : (get : Transfer Exchange).run.run e = (.ok e, e) := rfl
  rw [hreach, run_bind, hget]
  dsimp only
  cases e.files.obstacle? name <;> rfl

/-- What needs a name is done if nothing stands in the way. -/
theorem run_reach_bind (name : String) (f : Unit → Transfer β) (e : Exchange) :
    (reach name >>= f).run.run e = match e.files.obstacle? name with
      | some o => (.error (Failure.transfer (refusal o)), e)
      | none => (f ()).run.run e := by
  rw [run_bind, run_reach]
  cases e.files.obstacle? name <;> rfl

/-- A name can be reached exactly if nothing stands in the way. -/
theorem outcome_reach (name : String) : (reach name).outcome e = match e.files.obstacle? name with
      | some o => .error (Failure.transfer (refusal o))
      | none => .ok () := by
  rw [outcome, run_reach]
  cases e.files.obstacle? name <;> rfl

@[simp]
theorem after_reach (name : String) : (reach name).after e = e := by
  rw [after, run_reach]
  cases e.files.obstacle? name <;> rfl

/-- A failure that is caught is followed by what the handler does. -/
theorem outcome_tryCatch (x : Transfer α) (handler : Failure → Transfer α) :
    (tryCatch x handler).outcome e = match x.outcome e with
      | .ok a => .ok a
      | .error d => (handler d).outcome (x.after e) := by
  rw [outcome, run_tryCatch, outcome, after]
  generalize x.run.run e = r
  obtain ⟨r, e'⟩ := r
  cases r <;> rfl

@[simp]
theorem outcome_map (x : Transfer α) (f : α → β) :
    (f <$> x).outcome e = (x.outcome e).map f := by
  rw [← bind_pure_comp, outcome_bind]
  cases x.outcome e <;> rfl

end

/-! ## The published build -/

/-- A request ends with what its answer delivers. -/
theorem outcome_request (address : String) (e : Exchange) :
    (request address).outcome e =
      (e.replies.headD (.fault unanswered)).delivery.mapError Failure.transfer := by
  unfold request
  rw [outcome_bind, outcome_get, ok_bind, outcome_bind]
  exact outcome_ofExcept _ _

theorem request_error {address : String} {e : Exchange} {d : Failure}
    (h : (request address).outcome e = .error d) : ∃ t, d = .transfer t := by
  rw [outcome_request] at h
  cases hreply : (e.replies.headD (.fault unanswered)).delivery with
  | error t =>
    rw [hreply] at h
    cases h
    exact ⟨t, rfl⟩
  | ok r =>
    rw [hreply] at h
    cases h

/-- Following an address fails only on the way. -/
theorem followFrom_error {address : String} {limit : Nat} {e : Exchange} {d : Failure}
    (h : (followFrom address limit).outcome e = .error d) : ∃ t, d = .transfer t := by
  induction limit generalizing address e with
  | zero =>
    cases h
    exact ⟨_, rfl⟩
  | succ limit ih =>
    rw [followFrom, outcome_bind] at h
    cases hrequest : (request address).outcome e with
    | error d' =>
      rw [hrequest] at h
      cases h
      exact request_error hrequest
    | ok r =>
      rw [hrequest, ok_bind] at h
      split at h
      · rw [outcome_bind, outcome_ofExcept] at h
        cases htarget : target address r.response with
        | error t =>
          rw [htarget] at h
          cases h
          exact ⟨t, rfl⟩
        | ok next =>
          rw [htarget] at h
          exact ih h
      · cases h

theorem follow_error {address : String} {e : Exchange} {d : Failure}
    (h : (follow address).outcome e = .error d) : ∃ t, d = .transfer t := followFrom_error h

/-- A request takes the next answer, also if that is a fault. -/
theorem after_request (address : String) (e : Exchange) : (request address).after e =
    { e with replies := e.replies.tail, requests := e.requests ++ [address] } := by
  unfold request
  rw [after_bind, outcome_get]
  simp only [after_get]
  rw [after_bind]
  exact after_ofExcept _ _

/-- Requests do not change what is left of the stack. -/
theorem levels_followFrom (address : String) (limit : Nat) (e : Exchange) :
    ((followFrom address limit).after e).levels = e.levels := by
  induction limit generalizing address e with
  | zero => rfl
  | succ limit ih =>
    rw [followFrom, after_bind, after_request]
    cases (request address).outcome e with
    | error d => rfl
    | ok d =>
      dsimp only
      split
      · rw [after_bind, outcome_ofExcept, after_ofExcept]
        cases target address d.response with
        | error f => rfl
        | ok next => exact ih next _
      · rfl

/-- The value that the published build was answered with, as it stands in the body. -/
def answered (e : Exchange) : Except Failure Value := do
  let d ← (follow metaAddress).outcome e
  d.check.mapError Failure.transfer
  (d.response.check metaAddress).mapError Failure.transfer
  bodyValue e.levels.build d.response.body

theorem outcome_build (e : Exchange) :
    build.outcome e = answered e >>= fun v => shaped (v.memberOr "data" v) := by
  have hlevels := levels_followFrom metaAddress requestLimit e
  simp only [build, answered, follow, outcome_bind, outcome_ofExcept, outcome_get, after_ofExcept,
    after_get, hlevels, bind_assoc, ok_bind]

end CardArchive.Transfer
