import CardArchive.Proofs.Search.Determined
import CardArchive.Proofs.Search.Refusals

/-!
# Runs of calls that are accepted or refused

A run of calls ends with a search or with a refusal if each call does that comes after
accepted ones. It is accepted exactly if every call enters a filter that its category can
hold, so neither the order of the calls nor the errors of the refused ones matter to the
outcome.

## What this module delivers

* `SoundCall`: a call that is accepted or refused over a catalog.
* `accept_append`, `decided_accept`, `accept_of_sound`: runs of such calls.
* `SameEnd`: computations with the same result, or both refused.
* `sameEnd_run`: a run whose steps end as some calls do.
-/

set_option autoImplicit false

namespace CardArchive

/-! ## Runs of sound calls -/

/-- A call that is made by name and, over a catalog, is accepted or refused. -/
structure SoundCall (catalog : Catalog) (k : Call × List Argument) : Prop where
  named : k.1.IsNamed
  decided : ∀ s : Search, s.catalog = catalog → Decided (k.1.apply s k.2)

/-- Calls one after the other. -/
theorem accept_append (s : Search) (calls calls' : List (Call × List Argument)) :
    s.accept (calls ++ calls') = s.accept calls >>= fun next => next.accept calls' := by
  induction calls generalizing s with
  | nil => rfl
  | cons k rest ih =>
    rw [List.cons_append, Search.accept, Search.accept, bind_assoc]
    exact congrArg _ (funext fun next => ih next)

theorem catalog_of_accept {s next : Search} {calls : List (Call × List Argument)}
    (hnamed : ∀ k ∈ calls, k.1.IsNamed) (h : s.accept calls = .ok next) :
    next.catalog = s.catalog := by
  obtain ⟨-, rfl⟩ := (accept_eq_ok hnamed).1 h
  rfl

/-- A run is decided if every call is sound that comes after calls that are accepted. -/
theorem decided_accept {catalog : Catalog} {calls : List (Call × List Argument)}
    (hcalls : ∀ before k after, calls = before ++ k :: after → AllFit catalog before →
      SoundCall catalog k) {s : Search} (hs : s.catalog = catalog) : Decided (s.accept calls) := by
  induction calls generalizing s with
  | nil => exact decided_ok s
  | cons k rest ih =>
    have hk := hcalls [] k rest rfl (fun _ hmem => absurd hmem List.not_mem_nil)
    refine decided_bind (hk.decided s hs) fun next hnext => ?_
    obtain ⟨c, e, hentry, hfits, rfl⟩ := (apply_eq_ok hk.named).1 hnext
    refine ih (fun before k' after hrest hbefore => ?_) hs
    rw [hs] at hfits
    exact hcalls (k :: before) k' after (by rw [hrest, List.cons_append])
      (List.forall_mem_cons.2 ⟨⟨c, e, hentry, hfits⟩, hbefore⟩)

/-- A run of sound calls on a new search is accepted if every call enters what its category
can hold, and refused otherwise. -/
theorem accept_of_sound {catalog : Catalog} {calls : List (Call × List Argument)}
    (hcalls : ∀ k ∈ calls, SoundCall catalog k) :
    (AllFit catalog calls →
      (Search.start catalog).accept calls = .ok ⟨catalog, entered calls⟩) ∧
    (¬AllFit catalog calls → ∃ e, (Search.start catalog).accept calls = .error (.query e)) := by
  have hnamed : ∀ k ∈ calls, k.1.IsNamed := fun k hk => (hcalls k hk).named
  refine ⟨fun hfit => (accept_eq_ok hnamed).2 ⟨hfit, rfl⟩, fun hfit => ?_⟩
  have hdecided : Decided ((Search.start catalog).accept calls) :=
    decided_accept (fun _ k _ h _ => hcalls k (by simp [h])) rfl
  apply refused_of_decided hdecided
  exact fun next hnext => hfit ((accept_eq_ok hnamed).1 hnext).1

/-! ## Runs that end the same way -/

/-- Two computations that give the same result, or are both refused. -/
inductive SameEnd {α : Type} : Except Failure α → Except Failure α → Prop
  | result (a : α) : SameEnd (.ok a) (.ok a)
  | refused (e e' : QueryError) : SameEnd (.error (.query e)) (.error (.query e'))

theorem sameEnd_self {α : Type} {x : Except Failure α} (h : Decided x) : SameEnd x x := by
  rcases h with ⟨a, rfl⟩ | ⟨e, rfl⟩
  · exact .result a
  · exact .refused e e

theorem SameEnd.eq_ok {α : Type} {x : Except Failure α} {a : α} (h : SameEnd x (.ok a)) :
    x = .ok a := by
  cases h
  rfl

theorem SameEnd.eq_refused {α : Type} {x : Except Failure α} {e : QueryError}
    (h : SameEnd x (.error (.query e))) : ∃ e', x = .error (.query e') := by
  cases h with
  | refused e' e => exact ⟨e', rfl⟩

theorem sameEnd_bind {α β : Type} {x y : Except Failure α} {f g : α → Except Failure β}
    (hxy : SameEnd x y) (hfg : ∀ a, y = .ok a → SameEnd (f a) (g a)) :
    SameEnd (x >>= f) (y >>= g) := by
  cases hxy with
  | result a => exact hfg a rfl
  | refused e e' => exact .refused e e'

/-- A run whose steps end as the calls do ends as the run of the calls does. -/
theorem sameEnd_run {α : Type} {run : Search → List String → Except Failure Search}
    {step : Search → String → Except Failure Search} {write : α → String}
    {call : α → Call × List Argument} (hnil : ∀ s, run s [] = .ok s)
    (hcons : ∀ s e es, run s (e :: es) = step s e >>= fun next => run next es)
    (hcall : ∀ x, (call x).1.IsNamed) {catalog : Catalog}
    (hstep : ∀ s x, s.catalog = catalog →
      SameEnd (step s (write x)) ((call x).1.apply s (call x).2))
    (xs : List α) {s : Search} (hs : s.catalog = catalog) :
    SameEnd (run s (xs.map write)) (s.accept (xs.map call)) := by
  induction xs generalizing s with
  | nil =>
    rw [List.map_nil, hnil]
    exact .result s
  | cons x xs ih =>
    rw [List.map_cons, List.map_cons, hcons, Search.accept]
    refine sameEnd_bind (hstep s x hs) fun next hnext => ih ?_
    obtain ⟨c, e, -, -, rfl⟩ := (apply_eq_ok (hcall x)).1 hnext
    exact hs

end CardArchive
