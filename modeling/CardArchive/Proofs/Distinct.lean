import Mathlib.Tactic

/-!
# Lists without repetitions

Dropping the repetitions of a list leaves a list without any, and a list without any as
it is.

## What this module delivers

* `nodup_eraseDups`, `eraseDups_of_nodup`: the two halves.
* `filter_eraseDups`: repetitions can be dropped before items are selected, or after.
-/

set_option autoImplicit false

namespace CardArchive

variable {α : Type} [BEq α] [LawfulBEq α]

theorem nodup_eraseDups (xs : List α) : xs.eraseDups.Nodup := by
  induction hn : xs.length using Nat.strong_induction_on generalizing xs with
  | _ n ih =>
    cases xs with
    | nil => simp
    | cons x xs =>
      rw [List.eraseDups_cons, List.nodup_cons]
      refine ⟨?_, ih _ ?_ _ rfl⟩
      · intro hx
        have hfilter := List.mem_eraseDups.1 hx
        simp at hfilter
      · -- the items other than the first are fewer than all
        have hle := List.length_filter_le (fun b => !b == x) xs
        rw [List.length_cons] at hn
        omega

theorem eraseDups_of_nodup {xs : List α} (h : xs.Nodup) : xs.eraseDups = xs := by
  induction xs with
  | nil => rfl
  | cons x xs ih =>
    obtain ⟨hx, hxs⟩ := List.nodup_cons.1 h
    have hothers : xs.filter (fun y => !y == x) = xs := by
      rw [List.filter_eq_self]
      intro y hy
      have hne : y ≠ x := fun heq => hx (heq ▸ hy)
      simp [hne]
    rw [List.eraseDups_cons, hothers, ih hxs]

theorem filter_eraseDups (p : α → Bool) (xs : List α) :
    xs.eraseDups.filter p = (xs.filter p).eraseDups := by
  induction hn : xs.length using Nat.strong_induction_on generalizing xs with
  | _ n ih =>
    cases xs with
    | nil => rfl
    | cons x xs =>
      have hless : (xs.filter fun b => !b == x).length < n := by
        have hle := List.length_filter_le (fun b => !b == x) xs
        rw [List.length_cons] at hn
        omega
      have hrest := ih _ hless (xs.filter fun b => !b == x) rfl
      rw [List.filter_filter] at hrest
      rw [List.eraseDups_cons]
      cases hp : p x with
      | true =>
        rw [List.filter_cons_of_pos hp, List.filter_cons_of_pos hp, List.eraseDups_cons, hrest,
          List.filter_filter]
        congr 3
        funext b
        exact Bool.and_comm _ _
      | false =>
        -- what is selected is not `x`, so nothing else is dropped with its repetitions
        have hsame : (fun b => p b && !b == x) = p := by
          funext b
          by_cases hb : b = x
          · rw [hb, hp, Bool.false_and]
          · simp [hb]
        rw [List.filter_cons_of_neg (by simp [hp]), List.filter_cons_of_neg (by simp [hp]), hrest,
          hsame]

end CardArchive
