import CardArchive.Proofs.Download.Requests

/-!
# The course of the attempts at a file

The attempts at a file are made one after the other, each from what the one before has left. A
failure that another attempt may follow takes the file away, whether the attempt has written to
it or not, and is paused for; any other end of an attempt is the end of all.

## What this module delivers

* `Spares`: transfers that touch a single file, and `Saves`: what one attempt does to it.
* `attempt` and `afterAttempts`: how the attempts end one by one, and what they leave.
* `attemptsFrom_cases`: the attempts stop at the first that is not made again, or are spent.
* `Reaches`: the response that the last attempt stores.
* `attempts_of_obstacle`: one attempt at a name under which no file can be.
* `attempts_cases`, `attempts_ok`, `read?_attempts_error`: all attempts at a file.
-/

set_option autoImplicit false

namespace CardArchive.Transfer

open scoped Function

variable {address name : String}

/-! ## Files that stay -/

theorem sameFiles_follow (address : String) : Moves (Eq on Exchange.files) (follow address) := by
  intro e
  obtain ⟨sent, -, hafter⟩ := trail_followFrom address requestLimit e
  exact (congrArg Exchange.files hafter).symm

theorem files_follow (address : String) (e : Exchange) :
    ((follow address).after e).files = e.files := (sameFiles_follow address e).symm

theorem files_build (e : Exchange) : (build.after e).files = e.files :=
  (moves_build (sameFiles_follow metaAddress) e).symm

/-- Everything but what stands under one name is as it was. -/
def Spares (name : String) (e e' : Exchange) : Prop :=
  ∀ other, other ≠ name → e'.files.find? other = e.files.find? other

theorem spares_of_same {e e' : Exchange} (h : e.files = e'.files) : Spares name e e' :=
  fun _ _ => by rw [h]

instance : IsPreorder Exchange (Spares name) where
  refl _ := spares_of_same rfl
  trans _ _ _ h h' := fun other hne => (h' other hne).trans (h other hne)

theorem spares_save : Moves (Spares name) (save address name) :=
  moves_save ((sameFiles_follow address).mono fun _ _ => spares_of_same)
    fun e body _ _ _ hne => Directory.find?_write_ne hne e.files body

theorem spares_clear : Moves (Spares name) (clear name) :=
  moves_clear fun e _ _ hne => Directory.find?_remove_ne hne e.files

/-- The attempts at a file touch no other file. -/
theorem spares_attemptsFrom (address name : String) (total : Int) (left number : Nat)
    (last : Option Failure) :
    Moves (Spares name) (attemptsFrom address name total left number last) :=
  moves_attemptsFrom spares_save spares_clear (fun _ _ => spares_of_same rfl) _ _ _ _

/-! ## What stands in the way -/

/-- The file is written only where nothing stands in the way, and then nothing does. What stands
in the way of another file stays. -/
theorem sameObstacle_save (other : String) :
    Moves (Eq on fun e : Exchange => e.files.obstacle? other) (save address name) := by
  refine moves_save ((sameFiles_follow address).mono fun e e' h => ?_) fun e body _ hfree => ?_
  · exact congrArg (fun f : Directory => f.obstacle? other) h
  · by_cases hother : other = name
    · rw [← hother] at hfree ⊢
      have hfits := Directory.fits_of_obstacle?_eq_none hfree
      exact hfree.trans (Directory.obstacle?_write_self hfits e.files body).symm
    · exact Directory.obstacle?_congr (Directory.find?_write_ne hother e.files body).symm

theorem sameObstacle_clear (other : String) :
    Moves (Eq on fun e : Exchange => e.files.obstacle? other) (clear name) := by
  refine moves_clear fun e hfree => ?_
  by_cases hother : other = name
  · rw [← hother] at hfree ⊢
    have hfits := Directory.fits_of_obstacle?_eq_none hfree
    exact hfree.trans (Directory.obstacle?_remove_self hfits e.files).symm
  · exact Directory.obstacle?_congr (Directory.find?_remove_ne hother e.files).symm

/-- What stands in the way of any file stays as it is through the attempts at one. -/
theorem sameObstacle_attempts (address name other : String) (retries : Int) :
    Moves (Eq on fun e : Exchange => e.files.obstacle? other) (attempts address name retries) :=
  moves_attemptsFrom (sameObstacle_save other) (sameObstacle_clear other) (fun _ _ => rfl) _ _ _ _

theorem obstacle?_save (address name : String) (e : Exchange) :
    ((save address name).after e).files.obstacle? name = e.files.obstacle? name :=
  (sameObstacle_save name e).symm

theorem run_clear (name : String) (e : Exchange) :
    (clear name).run.run e = match e.files.obstacle? name with
      | some o => (.error (Failure.transfer (refusal o)), e)
      | none => (.ok (), { e with files := e.files.remove name }) :=
  run_reach_bind name _ e

theorem after_clear {e : Exchange} (hfree : e.files.obstacle? name = none) :
    (clear name).after e = { e with files := e.files.remove name } := by
  rw [after, run_clear, hfree]

theorem after_clear_of_obstacle {e : Exchange} {o : Obstacle}
    (h : e.files.obstacle? name = some o) : (clear name).after e = e := by
  rw [after, run_clear, h]

/-! ## One attempt -/

/-- How one attempt ends, and the files after it: unless something stands in the way, the body
of a success is stored whole, and what has arrived of a body that breaks off is stored as well.
Otherwise nothing is. -/
inductive Saves (address name : String) (e : Exchange) : Except Failure Unit → Directory → Prop
  | whole (r : Response) (hfree : e.files.obstacle? name = none)
      (hfollow : (follow address).outcome e = .ok ⟨r, none⟩)
      (hr : r.isSuccess = true) : Saves address name e (.ok ()) (e.files.write name r.body)
  | part (body : String) (d : Failure) (hfree : e.files.obstacle? name = none)
      (hd : isRetried d = true) : Saves address name e (.error d) (e.files.write name body)
  | nothing (d : Failure) : Saves address name e (.error d) e.files

theorem saves (address name : String) (e : Exchange) : Saves address name e
    ((save address name).outcome e) ((save address name).after e).files := by
  have hfiles := files_follow address e
  unfold save
  rw [outcome_bind, after_bind]
  cases hfollow : (follow address).outcome e with
  | error f =>
    dsimp only
    rw [hfiles]
    exact .nothing f
  | ok d =>
    dsimp only [ok_bind]
    generalize (follow address).after e = e' at hfiles
    have hnothing : ∀ f, Saves address name e (.error f) e'.files := fun f => hfiles ▸ .nothing f
    cases hcheck : d.response.check address with
    | error f => exact hnothing _
    | ok u =>
      have hsuccess : d.response.isSuccess = true := by
        unfold Response.check at hcheck
        split at hcheck
        · assumption
        · cases hcheck
      cases announced d.response with
      | error f => exact hnothing f
      | ok expected =>
        change Saves address name e ((reach name >>= _).outcome e')
          ((reach name >>= _).after e').files
        rw [outcome_bind, after_bind, outcome_reach, after_reach]
        cases hfree : e'.files.obstacle? name with
        | some o => exact hnothing _
        | none =>
          rw [hfiles] at hfree
          have hpart : ∀ body f, isRetried f = true →
              Saves address name e (.error f) (e'.files.write name body) :=
            fun body f hf => hfiles ▸ .part body f hfree hf
          obtain ⟨r, cut⟩ := d
          rcases cut with _ | ⟨kind, reason⟩ | ⟨reason⟩
          · have hwhole : Saves address name e (.ok ()) (e'.files.write name r.body) :=
              hfiles ▸ .whole r hfree hfollow hsuccess
            exact hwhole
          -- what has arrived was written before the break was seen
          · exact hpart r.body _ rfl
          · exact hpart r.body _ rfl

/-! ## Attempts one by one -/

/-- Whether another attempt is made after one that ended so, if there is one left. -/
def isRepeated : Except Failure Unit → Bool
  | .ok _ => false
  | .error d => isRetried d

/-- The failure of an attempt. -/
def failure? : Except Failure Unit → Option Failure
  | .ok _ => none
  | .error d => some d

/-- The exchange that an attempt starts from after so many others, which is paused for unless
it is the first one. -/
def resumed (k : Nat) (e : Exchange) : Exchange :=
  if k = 0 then e else (pause (k + 1)).after e

/-- The exchange after an attempt that is made after so many others. Its file is taken away if
another attempt may follow and nothing stands in the way. -/
def attempted (address name : String) (k : Nat) (e : Exchange) : Exchange :=
  let e' := (save address name).after (resumed k e)
  if isRepeated ((save address name).outcome (resumed k e)) then (clear name).after e' else e'

/-- The exchange after so many attempts. -/
def afterAttempts (address name : String) (e : Exchange) : Nat → Exchange
  | 0 => e
  | k + 1 => attempted address name k (afterAttempts address name e k)

/-- How the attempt ends that is made after so many others. -/
def attempt (address name : String) (e : Exchange) (k : Nat) : Except Failure Unit :=
  (save address name).outcome (resumed k (afterAttempts address name e k))

theorem attempt_zero (address name : String) (e : Exchange) :
    attempt address name e 0 = (save address name).outcome e := rfl

/-- The failure of the last of so many attempts. -/
def lastFailure (address name : String) (e : Exchange) : Nat → Option Failure
  | 0 => none
  | k + 1 => failure? (attempt address name e k)

/-- What follows an attempt is told how it failed, if it did. -/
theorem run_tried (address name : String) (next : Option Failure → Transfer Unit) (e : Exchange) :
    ((tryCatch (save address name *> pure none) fun e => pure (some e)) >>= next).run.run e =
      (next (failure? ((save address name).outcome e))).run.run ((save address name).after e) := by
  have hthen : (save address name *> pure none : Transfer (Option Failure)) =
      save address name >>= fun _ => pure none := rfl
  rw [run_bind, run_tryCatch, hthen, run_bind, outcome, after]
  generalize (save address name).run.run e = r
  obtain ⟨r, e'⟩ := r
  cases r <;> rfl

/-- What follows an attempt, which is told how it failed, if it did. -/
def followUp (address name : String) (total : Int) (left number : Nat) :
    Option Failure → Transfer Unit
  | none => pure ()
  | some d =>
    if isRetried d then do
      clear name
      attemptsFrom address name total left (number + 1) (some d)
    else throw d

theorem run_followUp (address name : String) (total : Int) (left number : Nat)
    (r : Except Failure Unit) (e : Exchange) :
    (followUp address name total left number (failure? r)).run.run e =
      if isRepeated r then
        match e.files.obstacle? name with
        | some o => (.error (Failure.transfer (refusal o)), e)
        | none => (attemptsFrom address name total left (number + 1) (failure? r)).run.run
            { e with files := e.files.remove name }
      else (r, e) := by
  cases r with
  | ok u => rfl
  | error d =>
    have hrepeated : isRepeated (.error d) = isRetried d := rfl
    rw [hrepeated, failure?, followUp]
    by_cases hd : isRetried d = true
    · rw [if_pos hd, if_pos hd, run_bind, run_clear]
      cases e.files.obstacle? name <;> rfl
    · rw [if_neg hd, if_neg hd]
      rfl

/-- An attempt is followed by what is made of its end. -/
theorem run_attemptsFrom_succ (address name : String) (total : Int) (left k : Nat)
    {last : Option Failure} (hlast : last.isSome = true ↔ k ≠ 0) (e : Exchange) :
    (attemptsFrom address name total (left + 1) (k + 1) last).run.run e =
      (followUp address name total left (k + 1)
        (failure? ((save address name).outcome (resumed k e)))).run.run
          ((save address name).after (resumed k e)) := by
  rw [← run_tried, attemptsFrom, resumed]
  by_cases hk : k = 0
  · rw [if_pos hk, if_neg (hlast.not.2 (not_not.2 hk))]
    rfl
  · rw [if_neg hk, if_pos (hlast.2 hk)]
    rfl

theorem files_resumed (k : Nat) (e : Exchange) : (resumed k e).files = e.files := by
  unfold resumed
  split <;> rfl

/-- Unless something stands in the way, an attempt is followed by the others if it is made again,
and is the last one if not. -/
theorem run_attemptsFrom_of_free (address name : String) (total : Int) (left k : Nat)
    {last : Option Failure} (hlast : last.isSome = true ↔ k ≠ 0) {e : Exchange}
    (hfree : e.files.obstacle? name = none) :
    let r := (save address name).outcome (resumed k e)
    (attemptsFrom address name total (left + 1) (k + 1) last).run.run e =
      if isRepeated r then
        (attemptsFrom address name total left (k + 2) (failure? r)).run.run
          (attempted address name k e)
      else (r, attempted address name k e) := by
  have hsaved : ((save address name).after (resumed k e)).files.obstacle? name = none := by
    rw [obstacle?_save, files_resumed, hfree]
  dsimp only
  rw [run_attemptsFrom_succ address name total left k hlast, run_followUp, hsaved, attempted,
    after_clear hsaved]
  split <;> rfl

/-- If something stands in the way, an attempt that might be made again ends all at the disk. -/
theorem run_attemptsFrom_of_obstacle (address name : String) (total : Int) (left k : Nat)
    {last : Option Failure} (hlast : last.isSome = true ↔ k ≠ 0) {e : Exchange} {o : Obstacle}
    (h : e.files.obstacle? name = some o) :
    let r := (save address name).outcome (resumed k e)
    (attemptsFrom address name total (left + 1) (k + 1) last).run.run e =
      (if isRepeated r then .error (Failure.transfer (refusal o)) else r,
        attempted address name k e) := by
  have hsaved : ((save address name).after (resumed k e)).files.obstacle? name = some o := by
    rw [obstacle?_save, files_resumed, h]
  dsimp only
  rw [run_attemptsFrom_succ address name total left k hlast, run_followUp, hsaved, attempted,
    after_clear_of_obstacle hsaved]
  split <;> rfl

/-! ## All attempts -/

section

variable {e : Exchange}

theorem obstacle?_attempted (k : Nat) (e : Exchange) :
    (attempted address name k e).files.obstacle? name = e.files.obstacle? name := by
  have hsaved : ((save address name).after (resumed k e)).files.obstacle? name =
      e.files.obstacle? name := by rw [obstacle?_save, files_resumed]
  rw [attempted]
  split
  · exact (sameObstacle_clear name _).symm.trans hsaved
  · exact hsaved

theorem obstacle?_afterAttempts (address name : String) (e : Exchange) (k : Nat) :
    (afterAttempts address name e k).files.obstacle? name = e.files.obstacle? name := by
  induction k with
  | zero => rfl
  | succ k ih => exact (obstacle?_attempted k _).trans ih

/-- The first attempt is the only one without a failure before it. -/
theorem isSome_lastFailure {k : Nat}
    (hbefore : ∀ i < k, isRepeated (attempt address name e i) = true) :
    (lastFailure address name e k).isSome = true ↔ k ≠ 0 := by
  cases k with
  | zero => simp [lastFailure]
  | succ k =>
    have hlast := hbefore k (Nat.lt_succ_self k)
    rw [lastFailure]
    cases hr : attempt address name e k with
    | ok u =>
      rw [hr] at hlast
      cases hlast
    | error d => simp [failure?]

/-- Unless something stands in the way, the attempts that are left stop at the first that is not
made again. If there is none, they are spent, and the last failure of all is reported. -/
theorem attemptsFrom_cases (hfree : e.files.obstacle? name = none) (total : Int) (left : Nat)
    {k : Nat} (hbefore : ∀ i < k, isRepeated (attempt address name e i) = true) :
    let run := (attemptsFrom address name total left (k + 1)
      (lastFailure address name e k)).run.run (afterAttempts address name e k)
    (∃ j < k + left, (∀ i < j, isRepeated (attempt address name e i) = true) ∧
      isRepeated (attempt address name e j) = false ∧
      run = (attempt address name e j, afterAttempts address name e (j + 1))) ∨
    (∀ i < k + left, isRepeated (attempt address name e i) = true) ∧
      run = (.error (exhausted total (lastFailure address name e (k + left))),
        afterAttempts address name e (k + left)) := by
  -- on the attempts that are left: each one either ends all, or joins those that were made again
  induction left generalizing k with
  | zero => exact .inr ⟨hbefore, rfl⟩
  | succ left ih =>
    dsimp only
    have hreachable := (obstacle?_afterAttempts address name e k).trans hfree
    rw [run_attemptsFrom_of_free address name total left k (isSome_lastFailure hbefore) hreachable]
    have hattempt : (save address name).outcome (resumed k (afterAttempts address name e k)) =
      attempt address name e k := rfl
    rw [hattempt]
    cases hr : isRepeated (attempt address name e k) with
    | false =>
      rw [if_neg Bool.false_ne_true]
      exact .inl ⟨k, by omega, hbefore, hr, rfl⟩
    | true =>
      have hbefore' : ∀ i < k + 1, isRepeated (attempt address name e i) = true := by
        intro i hi
        rcases Nat.lt_succ_iff_lt_or_eq.1 hi with hlt | rfl
        · exact hbefore i hlt
        · exact hr
      have hrest := ih hbefore'
      rw [Nat.add_right_comm k 1 left] at hrest
      rw [if_pos rfl]
      exact hrest

/-- Unless something stands in the way, the attempts at a file stop at the first that is not made
again, or are spent. -/
theorem attempts_cases (address : String) (retries : Int) (hfree : e.files.obstacle? name = none) :
    let run := (attempts address name retries).run.run e
    (∃ j : Nat, j ≤ retries ∧ (∀ i < j, isRepeated (attempt address name e i) = true) ∧
      isRepeated (attempt address name e j) = false ∧
      run = (attempt address name e j, afterAttempts address name e (j + 1))) ∨
    (∀ i : Nat, i ≤ retries → isRepeated (attempt address name e i) = true) ∧
      run = (.error (exhausted (retries + 1)
        (lastFailure address name e (retries + 1).toNat)),
        afterAttempts address name e (retries + 1).toNat) := by
  have hle : ∀ i : Nat, i < 0 + (retries + 1).toNat ↔ (i : Int) ≤ retries := by omega
  have hnone : ∀ i < 0, isRepeated (attempt address name e i) = true :=
    fun i hi => absurd hi (Nat.not_lt_zero i)
  rcases attemptsFrom_cases hfree (retries + 1) (retries + 1).toNat hnone with
    ⟨j, hj, hbefore, hlast, hrun⟩ | ⟨hall, hrun⟩
  · exact .inl ⟨j, (hle j).1 hj, hbefore, hlast, hrun⟩
  · rw [Nat.zero_add (retries + 1).toNat] at hrun
    exact .inr ⟨fun i hi => hall i ((hle i).2 hi), hrun⟩

/-- Where something stands in the way, every attempt fails and leaves the files as they were. -/
theorem attempt_of_obstacle {o : Obstacle} (h : e.files.obstacle? name = some o) (k : Nat) :
    (∃ d, attempt address name e k = .error d) ∧
      (afterAttempts address name e (k + 1)).files = (afterAttempts address name e k).files := by
  have hstarts : (resumed k (afterAttempts address name e k)).files.obstacle? name = some o := by
    rw [files_resumed, obstacle?_afterAttempts, h]
  have hsaves := saves address name (resumed k (afterAttempts address name e k))
  have hclear : ((clear name).after
      ((save address name).after (resumed k (afterAttempts address name e k)))).files =
      ((save address name).after (resumed k (afterAttempts address name e k))).files := by
    rw [after_clear_of_obstacle (o := o)]
    rw [obstacle?_save, hstarts]
  rw [afterAttempts, attempted, attempt]
  generalize (save address name).outcome (resumed k (afterAttempts address name e k)) = r
    at hsaves ⊢
  generalize hfiles :
    ((save address name).after (resumed k (afterAttempts address name e k))).files = f
    at hsaves hclear
  cases hsaves with
  | whole r hfree => cases hstarts.symm.trans hfree
  | part body d hfree => cases hstarts.symm.trans hfree
  | nothing d =>
    refine ⟨⟨d, rfl⟩, ?_⟩
    rw [files_resumed] at hclear hfiles
    split
    · exact hclear
    · exact hfiles

theorem files_afterAttempts_of_obstacle {o : Obstacle} (h : e.files.obstacle? name = some o)
    (k : Nat) : (afterAttempts address name e k).files = e.files := by
  induction k with
  | zero => rfl
  | succ k ih => exact (attempt_of_obstacle h k).2.trans ih

/-- Where something stands in the way, there is one attempt at most. If another one might follow
it, the disk is what the attempts fail with, for the file can not be taken away. -/
theorem attempts_of_obstacle {o : Obstacle} (h : e.files.obstacle? name = some o)
    (address : String) {retries : Int} (hretries : 0 ≤ retries) :
    ∃ d, attempt address name e 0 = .error d ∧
      (attempts address name retries).run.run e =
        (.error (if isRetried d then .transfer (refusal o) else d),
          afterAttempts address name e 1) := by
  obtain ⟨n, rfl⟩ := Int.eq_ofNat_of_zero_le hretries
  have hn : ((n : Int) + 1).toNat = n + 1 := by omega
  have hfirst : (none : Option Failure).isSome = true ↔ 0 ≠ 0 := by simp
  have hrun := run_attemptsFrom_of_obstacle address name ((n : Int) + 1) n 0 hfirst h
  obtain ⟨⟨d, hd⟩, -⟩ := @attempt_of_obstacle address name e o h 0
  refine ⟨d, hd, ?_⟩
  have hattempt : (save address name).outcome (resumed 0 e) = .error d := by
    rw [resumed, if_pos rfl, ← attempt_zero, hd]
  rw [hattempt] at hrun
  rw [attempts, hn, hrun]
  cases hretried : isRetried d <;> simp [isRepeated, hretried, afterAttempts]

/-- Attempts that are not made fail at once. -/
theorem attempts_of_neg (address name : String) {retries : Int} (h : retries < 0) (e : Exchange) :
    (attempts address name retries).run.run e = (.error (exhausted (retries + 1) none), e) := by
  have hnone : (retries + 1).toNat = 0 := by omega
  rw [attempts, hnone]
  rfl

/-- Where something stands in the way, the attempts fail and leave the files as they were. -/
theorem attempts_error_of_obstacle {o : Obstacle} (h : e.files.obstacle? name = some o)
    (address : String) (retries : Int) :
    (∃ d, (attempts address name retries).outcome e = .error d) ∧
      ((attempts address name retries).after e).files = e.files := by
  rw [outcome, after]
  rcases lt_or_ge retries 0 with hneg | hretries
  · rw [attempts_of_neg address name hneg]
    exact ⟨⟨_, rfl⟩, rfl⟩
  · obtain ⟨d, -, hrun⟩ := attempts_of_obstacle h address hretries
    rw [hrun]
    exact ⟨⟨_, rfl⟩, files_afterAttempts_of_obstacle h 1⟩

/-- There is one attempt at most that is not made again after others that are. -/
theorem last_unique {j k : Nat} (hbefore : ∀ i < j, isRepeated (attempt address name e i) = true)
    (hlast : isRepeated (attempt address name e j) = false)
    (hbefore' : ∀ i < k, isRepeated (attempt address name e i) = true)
    (hlast' : isRepeated (attempt address name e k) = false) : j = k := by
  rcases Nat.lt_trichotomy j k with hlt | rfl | hlt
  · rw [hbefore' j hlt] at hlast
    cases hlast
  · rfl
  · rw [hbefore k hlt] at hlast'
    cases hlast'

/-! ## What the attempts leave -/

theorem samePauses_follow (address : String) :
    Moves (Eq on Exchange.pauses) (follow address) := by
  intro e
  obtain ⟨sent, -, hafter⟩ := trail_followFrom address requestLimit e
  exact (congrArg Exchange.pauses hafter).symm

/-- An attempt pauses the exchange before it, and else only talks and writes. -/
theorem pauses_attempted (address name : String) (k : Nat) (e : Exchange) :
    (attempted address name k e).pauses = (resumed k e).pauses := by
  have hsaves : Moves (Eq on Exchange.pauses) (save address name) :=
    moves_save (samePauses_follow address) fun _ _ _ _ => rfl
  have hclears : Moves (Eq on Exchange.pauses) (clear name) := moves_clear fun _ _ => rfl
  have hsave := (hsaves (resumed k e)).symm
  unfold attempted
  dsimp only
  split
  · exact (hclears _).symm.trans hsave
  · exact hsave

/-- The pauses between the attempts are one second, two seconds, four seconds and so on. -/
theorem pauses_afterAttempts (address name : String) (e : Exchange) (k : Nat) :
    (afterAttempts address name e (k + 1)).pauses =
      e.pauses ++ (List.range k).map fun i => 2 ^ i := by
  induction k with
  | zero =>
    rw [afterAttempts, pauses_attempted]
    simp [resumed, afterAttempts]
  | succ k ih =>
    rw [afterAttempts, pauses_attempted, resumed, if_neg (Nat.succ_ne_zero k), List.range_succ,
      List.map_append, ← List.append_assoc, ← ih]
    rfl

/-- An attempt that may be followed by another one leaves no file. -/
theorem find?_attempted {k : Nat} {e : Exchange} (hfree : e.files.obstacle? name = none)
    (h : isRepeated ((save address name).outcome (resumed k e)) = true) :
    (attempted address name k e).files.find? name = none := by
  have hsaved : ((save address name).after (resumed k e)).files.obstacle? name = none := by
    rw [obstacle?_save, files_resumed, hfree]
  rw [attempted, if_pos h, after_clear hsaved]
  exact Directory.find?_remove_self _ _

theorem spares_afterAttempts (address name : String) (e : Exchange) (k : Nat) :
    Spares name e (afterAttempts address name e k) := by
  induction k with
  | zero => exact refl_of (Spares name) e
  | succ k ih =>
    have hsave := @spares_save address name (resumed k (afterAttempts address name e k))
    have hstart : Spares name (afterAttempts address name e k)
      (resumed k (afterAttempts address name e k)) := spares_of_same (files_resumed _ _).symm
    refine trans_of (Spares name) ih (trans_of (Spares name) hstart ?_)
    rw [afterAttempts, attempted]
    split
    · exact trans_of (Spares name) hsave (spares_clear _)
    · exact hsave

/-- Before an attempt the file is as it was if it is the first one, and else it is gone. -/
theorem find?_afterAttempts (hfree : e.files.obstacle? name = none) {k : Nat}
    (hbefore : ∀ i < k, isRepeated (attempt address name e i) = true) :
    (afterAttempts address name e k).files.find? name =
      if k = 0 then e.files.find? name else none := by
  cases k with
  | zero => rfl
  | succ k =>
    have hreachable := (obstacle?_afterAttempts address name e k).trans hfree
    exact find?_attempted hreachable (hbefore k (Nat.lt_succ_self k))

/-- What is stored by an attempt that is not made again. -/
theorem saves_last {k : Nat} (h : isRepeated (attempt address name e k) = false) :
    Saves address name (resumed k (afterAttempts address name e k)) (attempt address name e k)
      (afterAttempts address name e (k + 1)).files := by
  have hsaves := saves address name (resumed k (afterAttempts address name e k))
  rw [afterAttempts, attempted]
  change isRepeated ((save address name).outcome _) = false at h
  rw [h]
  exact hsaves

/-- A response is stored by the attempt after so many others, each of which is made again. -/
structure Reaches (address name : String) (retries : Int) (e : Exchange) (k : Nat)
    (r : Response) : Prop where
  allowed : k ≤ retries
  before : ∀ i < k, isRepeated (attempt address name e i) = true
  ends : attempt address name e k = .ok ()
  response : (follow address).outcome (resumed k (afterAttempts address name e k)) =
    .ok ⟨r, none⟩
  success : r.isSuccess = true

section

variable {retries : Int} {k k' : Nat} {r r' : Response}

theorem Reaches.last (h : Reaches address name retries e k r) :
    isRepeated (attempt address name e k) = false := by
  rw [h.ends]
  rfl

/-- Only one attempt stores a response. -/
theorem Reaches.unique (h : Reaches address name retries e k r)
    (h' : Reaches address name retries e k' r') : k = k' ∧ r = r' := by
  obtain rfl := last_unique h.before h.last h'.before h'.last
  have hresponse := h.response.symm.trans h'.response
  cases hresponse
  exact ⟨rfl, rfl⟩

/-- A response is stored only where nothing stands in the way. -/
theorem Reaches.free (h : Reaches address name retries e k r) : e.files.obstacle? name = none := by
  cases hobstacle : e.files.obstacle? name with
  | none => rfl
  | some o =>
    obtain ⟨⟨d, hd⟩, -⟩ := @attempt_of_obstacle address name e o hobstacle k
    cases h.ends.symm.trans hd

/-- If an attempt stores a response, the attempts come through. -/
theorem Reaches.outcome (h : Reaches address name retries e k r) :
    (attempts address name retries).outcome e = .ok () := by
  rw [Transfer.outcome]
  rcases attempts_cases address retries h.free with ⟨j, -, hbefore, hlast, hrun⟩ | ⟨hall, -⟩
  · obtain rfl := last_unique hbefore hlast h.before h.last
    rw [hrun]
    exact h.ends
  · have hrepeated := hall k h.allowed
    rw [h.last] at hrepeated
    cases hrepeated

theorem free_of_attempts_ok {u : Unit} (h : (attempts address name retries).outcome e = .ok u) :
    e.files.obstacle? name = none := by
  cases hobstacle : e.files.obstacle? name with
  | none => rfl
  | some o =>
    obtain ⟨⟨d, hd⟩, -⟩ := attempts_error_of_obstacle hobstacle address retries
    cases h.symm.trans hd

/-- If the attempts come through, one of them stores a response. -/
theorem attempts_ok {u : Unit} (h : (attempts address name retries).outcome e = .ok u) :
    ∃ k r, Reaches address name retries e k r ∧
      (attempts address name retries).after e = afterAttempts address name e (k + 1) ∧
      (afterAttempts address name e (k + 1)).files.read? name = some r.body := by
  have hfree := free_of_attempts_ok h
  have hfits := Directory.fits_of_obstacle?_eq_none hfree
  rw [outcome] at h
  rw [after]
  rcases attempts_cases address retries hfree with ⟨j, hj, hbefore, hlast, hrun⟩ | ⟨-, hrun⟩
  · rw [hrun] at h ⊢
    have hsaves := saves_last hlast
    dsimp only at h ⊢
    rw [h] at hsaves
    generalize hfiles : (afterAttempts address name e (j + 1)).files = f at hsaves
    cases hsaves with
    | whole r hreachable hfollow hr =>
      refine ⟨j, r, ⟨hj, hbefore, h, hfollow, hr⟩, rfl, ?_⟩
      rw [hfiles]
      exact Directory.read?_write_self hfits _ _
  · rw [hrun] at h
    cases h

end

/-- If the attempts fail, the file is gone if the first of them was one that is made again and
nothing stands in the way, and else it is as it was. -/
theorem find?_attempts_error {retries : Int} {d : Failure}
    (h : (attempts address name retries).outcome e = .error d) :
    ((attempts address name retries).after e).files.find? name =
      if 0 ≤ retries ∧ e.files.obstacle? name = none ∧
        isRepeated (attempt address name e 0) = true then none
      else e.files.find? name := by
  cases hfree : e.files.obstacle? name with
  | some o =>
    rw [if_neg (by simp), (attempts_error_of_obstacle hfree address retries).2]
  | none =>
    rw [outcome] at h
    rw [after]
    rcases attempts_cases address retries hfree with
      ⟨j, hj, hbefore, hlast, hrun⟩ | ⟨hall, hrun⟩
    · rw [hrun] at h ⊢
      have hfile := find?_afterAttempts hfree hbefore
      have hsaves := saves_last hlast
      dsimp only at h ⊢
      rw [h] at hsaves hlast
      generalize (afterAttempts address name e (j + 1)).files = f at hsaves ⊢
      cases hsaves with
      | part body d hreachable hd => exact absurd hlast (by simp [isRepeated, hd])
      | nothing d =>
        rw [files_resumed, hfile]
        cases j with
        | zero => rw [if_pos rfl, h, hlast, if_neg (by simp)]
        | succ j =>
          rw [if_neg (Nat.succ_ne_zero j), if_pos ⟨by omega, rfl, hbefore 0 (Nat.succ_pos j)⟩]
    · rw [hrun]
      by_cases hretries : 0 ≤ retries
      · obtain ⟨n, hn⟩ : ∃ n, (retries + 1).toNat = n + 1 := ⟨retries.toNat, by omega⟩
        have hlast : isRepeated (attempt address name e n) = true := hall n (by omega)
        have hreachable := (obstacle?_afterAttempts address name e n).trans hfree
        rw [if_pos ⟨hretries, rfl, hall 0 hretries⟩, hn]
        exact find?_attempted hreachable hlast
      · have hnone : (retries + 1).toNat = 0 := by omega
        rw [hnone, if_neg fun hfirst => hretries hfirst.1]
        rfl

end

end CardArchive.Transfer
