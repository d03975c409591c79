/-!
# Order of texts

Texts are ordered by their characters, and characters by their code points. All
sorted answers use this order.

## What this module delivers

* `atMost`: the order as a test.
* `sorted`: the texts of a list in this order.
* `sortedBy`: any items, by a text that each has.
* `listAtMost`: the order of lists of texts, text by text, which is transitive and total.
-/

set_option autoImplicit false

namespace CardArchive.Text

/-- Whether the first text does not come after the second. -/
def atMost (a b : String) : Bool := decide (a ≤ b)

/-- The texts in order. -/
def sorted (xs : List String) : List String := xs.mergeSort atMost

/-- The items in the order of their keys; items of one key keep their order. -/
def sortedBy {α : Type} (key : α → String) (xs : List α) : List α :=
  xs.mergeSort fun a b => atMost (key a) (key b)

/-- Comparison of two lists of texts, text by text. -/
def listAtMost : List String → List String → Bool
  | [], _ => true
  | _ :: _, [] => false
  | a :: as, b :: bs => if a = b then listAtMost as bs else atMost a b

theorem atMost_trans (a b c : String) (h : atMost a b = true) (k : atMost b c = true) :
    atMost a c = true := by
  simp only [atMost, decide_eq_true_eq] at *
  exact String.le_trans h k

theorem atMost_total (a b : String) : (atMost a b || atMost b a) = true := by
  simpa [atMost] using String.le_total a b

theorem atMost_antisymm (a b : String) (h : atMost a b = true) (k : atMost b a = true) : a = b := by
  simp only [atMost, decide_eq_true_eq] at *
  exact String.le_antisymm h k

theorem listAtMost_trans (as bs cs : List String) (h : listAtMost as bs = true)
    (k : listAtMost bs cs = true) : listAtMost as cs = true := by
  induction as generalizing bs cs with
  | nil => rfl
  | cons a as ih =>
    cases bs with
    | nil => cases h
    | cons b bs =>
      cases cs with
      | nil => cases k
      | cons c cs =>
        simp only [listAtMost] at *
        by_cases hab : a = b
        · subst hab
          by_cases hac : a = c
          · rw [if_pos rfl] at h
            rw [if_pos hac] at k ⊢
            exact ih bs cs h k
          · rw [if_neg hac] at k ⊢
            exact k
        · rw [if_neg hab] at h
          by_cases hbc : b = c
          · rw [← hbc, if_neg hab]
            exact h
          · rw [if_neg hbc] at k
            -- the ends can not be equal, as the text between them is another one
            have hac : a ≠ c := fun heq => hab (atMost_antisymm a b h (heq ▸ k))
            rw [if_neg hac]
            exact atMost_trans a b c h k

theorem listAtMost_total (as bs : List String) : (listAtMost as bs || listAtMost bs as) = true := by
  induction as generalizing bs with
  | nil => rfl
  | cons a as ih =>
    cases bs with
    | nil => rfl
    | cons b bs =>
      simp only [listAtMost]
      by_cases hab : a = b
      · rw [if_pos hab, if_pos hab.symm]
        exact ih bs
      · rw [if_neg hab, if_neg (Ne.symm hab)]
        exact atMost_total a b

@[simp]
theorem mem_sorted (a : String) (xs : List String) : a ∈ sorted xs ↔ a ∈ xs :=
  List.mem_mergeSort

end CardArchive.Text
