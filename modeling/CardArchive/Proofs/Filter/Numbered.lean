import CardArchive.Filter.Compile
import Mathlib.Tactic

/-!
# Parts with alias numbers of their own

A computation that takes alias numbers hands them out one after the other. What it
builds is therefore a function of the first number alone, and the count of numbers
taken does not depend on that number. Parts of a statement that are built in turn
stand side by side: each starts at the number that the one before it has left.

## What this module delivers

* `Numbered`: a part as a function of its first alias number.
* `layout` and `sizes`: several parts in turn.
* `forall_layout`: a test of all parts that are laid out.
* `Numbering.Yields`: the outcome of a computation, with one rule for each step.
* `Numbering.Builds`: a computation that builds a part wherever it starts.
* `aliasName_injective`, `nodup_aliases`: different numbers are different aliases.
-/

set_option autoImplicit false

namespace CardArchive

variable {α β : Type}

/-! ## Aliases -/

/-- Digits of a number determine the number, so aliases of different numbers differ. -/
theorem aliasName_injective {m n : Nat} (h : aliasName m = aliasName n) : m = n := by
  have hrepr : Nat.repr m = Nat.repr n := String.append_right_inj "t" |>.1 h
  rw [← Nat.ofDigitChars_ten_toDigits (n := m), ← Nat.toList_repr, hrepr, Nat.toList_repr,
    Nat.ofDigitChars_ten_toDigits]

@[simp]
theorem aliasName_inj {m n : Nat} : aliasName m = aliasName n ↔ m = n := by
  constructor
  · exact aliasName_injective
  · intro h
    rw [h]

theorem aliasName_ne {m n : Nat} (h : m < n) : aliasName m ≠ aliasName n :=
  fun heq => h.ne (aliasName_injective heq)

/-- Aliases of numbers in turn are different. -/
theorem nodup_aliases (n k : Nat) : ((List.range' n k).map aliasName).Nodup :=
  List.Nodup.map (fun _ _ => aliasName_injective) (List.nodup_range' ..)

/-! ## Parts side by side -/

/-- A part of a statement as a function of the first alias number that it takes, and the
count of numbers taken. -/
structure Numbered (α : Type) where
  size : Nat
  build : Nat → α

/-- The count of numbers that several parts take together. -/
def sizes (xs : List (Numbered α)) : Nat := (xs.map Numbered.size).sum

/-- Several parts in turn; each takes its numbers after the part before it. -/
def layout : List (Numbered α) → Nat → List α
  | [], _ => []
  | x :: xs, n => x.build n :: layout xs (n + x.size)

@[simp]
theorem sizes_nil : sizes ([] : List (Numbered α)) = 0 := rfl

@[simp]
theorem sizes_cons (x : Numbered α) (xs : List (Numbered α)) :
    sizes (x :: xs) = x.size + sizes xs := by
  simp only [sizes, List.map_cons, List.sum_cons]

@[simp]
theorem sizes_append (xs ys : List (Numbered α)) : sizes (xs ++ ys) = sizes xs + sizes ys := by
  simp only [sizes, List.map_append, List.sum_append]

@[simp]
theorem layout_nil (n : Nat) : layout ([] : List (Numbered α)) n = [] := rfl

@[simp]
theorem layout_cons (x : Numbered α) (xs : List (Numbered α)) (n : Nat) :
    layout (x :: xs) n = x.build n :: layout xs (n + x.size) := rfl

theorem layout_append (xs ys : List (Numbered α)) (n : Nat) :
    layout (xs ++ ys) n = layout xs n ++ layout ys (n + sizes xs) := by
  induction xs generalizing n with
  | nil => rfl
  | cons x xs ih =>
    simp only [List.cons_append, layout_cons, sizes_cons, ih]
    rw [Nat.add_assoc]

/-- Every laid out part starts at a number that is not below the first one. -/
theorem mem_layout {xs : List (Numbered α)} {n : Nat} {a : α} (h : a ∈ layout xs n) :
    ∃ x ∈ xs, ∃ m, n ≤ m ∧ a = x.build m := by
  induction xs generalizing n with
  | nil => cases h
  | cons x xs ih =>
    rcases List.mem_cons.1 h with h | h
    · exact ⟨x, List.mem_cons_self, n, Nat.le_refl n, h⟩
    · obtain ⟨y, hy, m, hm, ha⟩ := ih h
      exact ⟨y, List.mem_cons_of_mem _ hy, m, by omega, ha⟩

/-- Every laid out part takes numbers below the last one. -/
theorem mem_layout_le {xs : List (Numbered α)} {n : Nat} {a : α} (h : a ∈ layout xs n) :
    ∃ x ∈ xs, ∃ m, m + x.size ≤ n + sizes xs ∧ a = x.build m := by
  induction xs generalizing n with
  | nil => cases h
  | cons x xs ih =>
    rw [sizes_cons]
    rcases List.mem_cons.1 h with h | h
    · exact ⟨x, List.mem_cons_self, n, by omega, h⟩
    · obtain ⟨y, hy, m, hm, ha⟩ := ih h
      exact ⟨y, List.mem_cons_of_mem _ hy, m, by omega, ha⟩

/-- Every part is laid out somewhere, not below the first number. -/
theorem exists_mem_layout {xs : List (Numbered α)} {x : Numbered α} (h : x ∈ xs) (n : Nat) :
    ∃ m, n ≤ m ∧ x.build m ∈ layout xs n := by
  induction xs generalizing n with
  | nil => cases h
  | cons y xs ih =>
    rcases List.mem_cons.1 h with rfl | h
    · exact ⟨n, Nat.le_refl n, List.mem_cons_self⟩
    · obtain ⟨m, hm, hmem⟩ := ih h (n + y.size)
      exact ⟨m, by omega, List.mem_cons_of_mem _ hmem⟩

/-- If a test of a part does not depend on where in the layout the part stands, then the layout
passes it exactly if all parts do. -/
theorem forall_layout {ι : Type} {part : ι → Numbered α} {P : α → Prop} {Q : ι → Prop}
    {xs : List ι} {n : Nat}
    (h : ∀ x ∈ xs, ∀ m, n ≤ m → (part x).build m ∈ layout (xs.map part) n →
      (P ((part x).build m) ↔ Q x)) : (∀ a ∈ layout (xs.map part) n, P a) ↔ ∀ x ∈ xs, Q x := by
  constructor
  · intro hall x hx
    obtain ⟨m, hm, hmem⟩ := exists_mem_layout (List.mem_map_of_mem hx) n
    exact (h x hx m hm hmem).1 (hall _ hmem)
  · intro hall a ha
    obtain ⟨y, hy, m, hm, rfl⟩ := mem_layout ha
    obtain ⟨x, hx, rfl⟩ := List.mem_map.1 hy
    exact (h x hx m hm ha).2 (hall x hx)

/-- The same part with something else made of what is built. -/
def Numbered.map (f : α → β) (x : Numbered α) : Numbered β := ⟨x.size, fun n => f (x.build n)⟩

@[simp]
theorem sizes_map (f : α → β) (xs : List (Numbered α)) :
    sizes (xs.map (Numbered.map f)) = sizes xs := by
  induction xs with
  | nil => rfl
  | cons x xs ih => simp only [List.map_cons, sizes_cons, ih, Numbered.map]

@[simp]
theorem layout_map (f : α → β) (xs : List (Numbered α)) (n : Nat) :
    layout (xs.map (Numbered.map f)) n = (layout xs n).map f := by
  induction xs generalizing n with
  | nil => rfl
  | cons x xs ih => simp only [List.map_cons, layout_cons, ih, Numbered.map]

/-- A part that stands only if it is needed. -/
def given (needed : Bool) (x : Numbered α) : List (Numbered α) := if needed then [x] else []

theorem mem_given {needed : Bool} {x y : Numbered α} :
    y ∈ given needed x ↔ needed = true ∧ y = x := by
  cases needed with
  | false => simp [given]
  | true => simp [given]

theorem given_map (needed : Bool) (f : α → β) (x : Numbered α) :
    given needed (x.map f) = (given needed x).map (Numbered.map f) := by
  cases needed with
  | false => rfl
  | true => rfl

/-! ## Outcomes of computations -/

namespace Numbering

/-- The computation succeeds with a result if it starts at `n`, and leaves `n'` as the
next number. -/
def Yields (m : Numbering α) (n : Nat) (a : α) (n' : Nat) : Prop := m.run.run n = (.ok a, n')

/-- The computation builds a part, whatever number it starts at. -/
def Builds (m : Numbering α) (x : Numbered α) : Prop :=
  ∀ n, m.Yields n (x.build n) (n + x.size)

theorem yields_pure (a : α) (n : Nat) : (pure a : Numbering α).Yields n a n := rfl

theorem yields_newAlias (n : Nat) : newAlias.Yields n (aliasName n) (n + 1) := rfl

theorem yields_ofExcept {x : Except Failure α} {a : α} (h : x = .ok a) (n : Nat) :
    (ofExcept x).Yields n a n := by
  rw [h]
  exact yields_pure a n

/-- Two steps in turn: the second starts at the number that the first has left. -/
theorem yields_bind {m : Numbering α} {f : α → Numbering β} {n n' n'' : Nat} {a : α} {b : β}
    (hm : m.Yields n a n') (hf : (f a).Yields n' b n'') : (m >>= f).Yields n b n'' := by
  have hstep : (m >>= f).run.run n = (f a).run.run n' := by
    simp only [Yields] at hm
    -- the counter lies below the failures, so it is kept across the step
    simp only [ExceptT.run_bind, StateT.run_bind, hm]
    rfl
  rw [Yields, hstep]
  exact hf

theorem yields_map {m : Numbering α} {n n' : Nat} {a : α} (f : α → β) (hm : m.Yields n a n') :
    (f <$> m).Yields n (f a) n' := by
  have hstep : (f <$> m) = m >>= fun a => pure (f a) := (bind_pure_comp f m).symm
  rw [hstep]
  exact yields_bind hm (yields_pure (f a) n')

end Numbering

theorem Numbering.yields_onlyIf (needed : Bool) {m : Numbering Expr} {x : Numbered Expr}
    (hm : m.Builds x) (n : Nat) :
    (onlyIf needed m).Yields n (layout (given needed x) n) (n + sizes (given needed x)) := by
  cases needed with
  | false => exact yields_pure [] n
  | true => exact yields_bind (hm n) (yields_pure [x.build n] (n + x.size))

end CardArchive
