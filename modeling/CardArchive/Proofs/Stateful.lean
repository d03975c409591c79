import CardArchive.Proofs.Outcome

/-!
# Computations that change a state

Transfers change an exchange and commands change a desk, and both may fail on the way. What
was done before a failure stays done, so what such a computation does to its state is shown
step by step, whether the steps succeed or not.

## What this module delivers

* `run_bind`, `run_tryCatch`: a run of two steps, and of a step whose failures are caught.
* `Moves`: computations that move their state along a preorder, with one rule for each way
  to put a computation together.
-/

set_option autoImplicit false

namespace CardArchive

variable {σ ε α β : Type}

/-- The second step starts from what the first one has left; after a failure there is none. -/
theorem run_bind (x : ExceptT ε (StateM σ) α) (f : α → ExceptT ε (StateM σ) β) (s : σ) :
    (x >>= f).run.run s = match x.run.run s with
      | (.ok a, t) => (f a).run.run t
      | (.error e, t) => (.error e, t) := by
  change (ExceptT.bind x f).run.run s = _
  simp only [ExceptT.bind, ExceptT.run, ExceptT.mk, StateT.run, bind, StateT.bind]
  generalize x s = r
  obtain ⟨r, t⟩ := r
  cases r <;> rfl

/-- The handler of a failure starts from what was done before it. -/
theorem run_tryCatch (x : ExceptT ε (StateM σ) α) (handler : ε → ExceptT ε (StateM σ) α) (s : σ) :
    (tryCatch x handler).run.run s = match x.run.run s with
      | (.ok a, t) => (.ok a, t)
      | (.error e, t) => (handler e).run.run t := by
  change (ExceptT.tryCatch x handler).run.run s = _
  simp only [ExceptT.tryCatch, ExceptT.run, ExceptT.mk, StateT.run, bind, StateT.bind]
  generalize x s = r
  obtain ⟨r, t⟩ := r
  cases r <;> rfl

/-- A computation that moves its state along a relation, whether it succeeds or not. -/
def Moves (R : σ → σ → Prop) (x : ExceptT ε (StateM σ) α) : Prop := ∀ s, R s (x.run.run s).2

section

variable {R : σ → σ → Prop}

theorem moves_modify {f : σ → σ} (h : ∀ s, R s (f s)) :
    Moves R (modify f : ExceptT ε (StateM σ) Unit) := h

/-- What follows a look at the state may use that it was the state. -/
theorem moves_get_bind {f : σ → ExceptT ε (StateM σ) α} (h : ∀ s, R s ((f s).run.run s).2) :
    Moves R (get >>= f) := h

theorem Moves.mono {S : σ → σ → Prop} {x : ExceptT ε (StateM σ) α} (hx : Moves R x)
    (h : ∀ s t, R s t → S s t) : Moves S x := fun s => h _ _ (hx s)

variable [IsPreorder σ R]

theorem moves_pure (a : α) : Moves R (pure a : ExceptT ε (StateM σ) α) := fun s => refl_of R s

theorem moves_throw (e : ε) : Moves R (throw e : ExceptT ε (StateM σ) α) := fun s => refl_of R s

theorem moves_get : Moves R (get : ExceptT ε (StateM σ) σ) := fun s => refl_of R s

theorem moves_bind {x : ExceptT ε (StateM σ) α} {f : α → ExceptT ε (StateM σ) β}
    (hx : Moves R x) (hf : ∀ a, Moves R (f a)) : Moves R (x >>= f) := by
  intro s
  have hfirst := hx s
  rw [run_bind]
  generalize x.run.run s = r at hfirst
  obtain ⟨r, t⟩ := r
  cases r with
  | error e => exact hfirst
  | ok a => exact trans_of R hfirst (hf a t)

theorem moves_tryCatch {x : ExceptT ε (StateM σ) α} {handler : ε → ExceptT ε (StateM σ) α}
    (hx : Moves R x) (hhandler : ∀ e, Moves R (handler e)) : Moves R (tryCatch x handler) := by
  intro s
  have hfirst := hx s
  rw [run_tryCatch]
  generalize x.run.run s = r at hfirst
  obtain ⟨r, t⟩ := r
  cases r with
  | error e => exact trans_of R hfirst (hhandler e t)
  | ok a => exact hfirst

theorem moves_map {x : ExceptT ε (StateM σ) α} (f : α → β) (hx : Moves R x) :
    Moves R (f <$> x) := by
  rw [← bind_pure_comp]
  exact moves_bind hx fun a => moves_pure (f a)

end

end CardArchive
