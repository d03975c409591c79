import CardArchive.Failure
import Mathlib.Tactic

/-!
# Computations that can fail

A computation that succeeds has succeeded in each of its steps, and one that fails has
failed in the first step that did. The lemmas here take a success or a failure apart, step
by step, without opening the computation itself.

## What this module delivers

* `bind_eq_ok`, `mapError_eq_ok`, `map_eq_ok`: a success of two steps, of a step
  with another wording of its failures, and of a step with another result.
* `toOption_eq_some`: a success without its failures.
* `shaped_eq_ok`, `stored_eq_ok`: the same for the two wordings met most.
* `refuse_eq_ok`: a success after a check.
* `Fails` and `fails_bind`: that a computation fails, step by step.
-/

set_option autoImplicit false

namespace CardArchive

variable {ε ε' α β : Type}

/-- Two steps succeed exactly if the first does and then the second. -/
theorem bind_eq_ok {x : Except ε α} {f : α → Except ε β} {b : β} :
    (x >>= f) = .ok b ↔ ∃ a, x = .ok a ∧ f a = .ok b := by
  cases x with
  | error e => simp [bind, Except.bind]
  | ok a => simp [bind, Except.bind]

/-- After a success the second step is all that is left. -/
theorem ok_bind {a : α} {f : α → Except ε β} : (Except.ok a >>= f) = f a := rfl

@[simp]
theorem pure_eq_ok {a b : α} : (pure a : Except ε α) = .ok b ↔ a = b := by
  simp [pure, Except.pure]

@[simp]
theorem throw_ne_ok {e : ε} {a : α} : (throw e : Except ε α) ≠ .ok a := by
  simp [throw, throwThe, MonadExceptOf.throw]

/-- The wording of failures does not touch a success. -/
@[simp]
theorem mapError_eq_ok {f : ε → ε'} {x : Except ε α} {a : α} :
    x.mapError f = .ok a ↔ x = .ok a := by
  cases x with
  | error e => simp [Except.mapError]
  | ok b => simp [Except.mapError]

theorem map_eq_ok {f : α → β} {x : Except ε α} {b : β} :
    x.map f = .ok b ↔ ∃ a, x = .ok a ∧ f a = b := by
  cases x with
  | error e => simp [Except.map]
  | ok a => simp [Except.map]

theorem toOption_eq_some {x : Except ε α} {a : α} : x.toOption = some a ↔ x = .ok a := by
  cases x with
  | error e => simp [Except.toOption]
  | ok b => simp [Except.toOption]

@[simp]
theorem shaped_eq_ok {x : Except ShapeFault α} {a : α} : shaped x = .ok a ↔ x = .ok a := by
  rw [shaped, mapError_eq_ok]

@[simp]
theorem stored_eq_ok {x : Except StorageFault α} {a : α} : stored x = .ok a ↔ x = .ok a := by
  rw [stored, mapError_eq_ok]

/-- What is checked before the next step does not hold if the steps succeed together. -/
theorem refuse_eq_ok {p : Prop} [Decidable p] {e : ε} {f : PUnit → Except ε β} {b : β} :
    (if p then throw e >>= f else f PUnit.unit) = .ok b ↔ ¬p ∧ f PUnit.unit = .ok b := by
  by_cases hp : p
  · simp [hp, bind, Except.bind, throw, throwThe, MonadExceptOf.throw]
  · simp [hp]

/-! ## Failures -/

/-- Whether a computation fails. -/
def Fails (x : Except ε α) : Prop := ∃ e, x = .error e

@[simp]
theorem not_fails_ok (a : α) : ¬Fails (.ok a : Except ε α) := by
  rintro ⟨e, h⟩
  cases h

/-- What has a result does not fail. -/
theorem not_fails_of_ok {x : Except ε α} {a : α} (h : x = .ok a) : ¬Fails x :=
  h ▸ not_fails_ok a

@[simp]
theorem not_fails_pure (a : α) : ¬Fails (pure a : Except ε α) := not_fails_ok a

@[simp]
theorem fails_error (e : ε) : Fails (.error e : Except ε α) := ⟨e, rfl⟩

@[simp]
theorem fails_throw (e : ε) : Fails (throw e : Except ε α) := ⟨e, rfl⟩

/-- Two steps fail if the first does or, after its success, the second. -/
theorem fails_bind {x : Except ε α} {f : α → Except ε β} :
    Fails (x >>= f) ↔ Fails x ∨ ∃ a, x = .ok a ∧ Fails (f a) := by
  cases x with
  | error e => simp [bind, Except.bind]
  | ok a => simp [bind, Except.bind]

@[simp]
theorem fails_mapError {f : ε → ε'} {x : Except ε α} : Fails (x.mapError f) ↔ Fails x := by
  cases x with
  | error e => simp [Except.mapError]
  | ok a => simp [Except.mapError]

@[simp]
theorem fails_map {f : α → β} {x : Except ε α} : Fails (f <$> x) ↔ Fails x := by
  cases x with
  | error e => simp [Functor.map, Except.map]
  | ok a => simp [Functor.map, Except.map]

@[simp]
theorem fails_shaped {x : Except ShapeFault α} : Fails (shaped x) ↔ Fails x := fails_mapError

end CardArchive
