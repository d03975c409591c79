import Mathlib.Tactic

/-!
# Values under a key

A list of pairs of a key and a value can be gathered key by key. What stands under one key
keeps its order, so gathering shows as little of the order of the list as the values under
each key do.

## What this module delivers

* `under` and `gathered`: the values under one key, and the pairs key by key.
* `mem_gathered`: the pairs that are gathered.
* `under_gathered`: gathering keeps what stands under a key.
-/

set_option autoImplicit false

namespace CardArchive

variable {κ ν : Type} [DecidableEq κ]

/-- The values that stand under a key, in order. -/
def under (k : κ) (ps : List (κ × ν)) : List ν :=
  ps.filterMap fun p => if p.1 = k then some p.2 else none

/-- The pairs key by key, those of one key in order. -/
def gathered (ks : List κ) (ps : List (κ × ν)) : List (κ × ν) :=
  ks.flatMap fun k => (under k ps).map (Prod.mk k)

theorem under_append (k : κ) (ps qs : List (κ × ν)) :
    under k (ps ++ qs) = under k ps ++ under k qs := List.filterMap_append

theorem mem_under {k : κ} {v : ν} {ps : List (κ × ν)} : v ∈ under k ps ↔ (k, v) ∈ ps := by
  simp only [under, List.mem_filterMap]
  constructor
  · rintro ⟨⟨l, w⟩, hp, h⟩
    split at h
    · rename_i hl
      cases h
      exact hl ▸ hp
    · cases h
  · intro h
    exact ⟨(k, v), h, by simp⟩

theorem mem_gathered {k : κ} {v : ν} {ks : List κ} {ps : List (κ × ν)} :
    (k, v) ∈ gathered ks ps ↔ k ∈ ks ∧ (k, v) ∈ ps := by
  simp only [gathered, List.mem_flatMap, List.mem_map, mem_under, Prod.mk.injEq]
  constructor
  · rintro ⟨l, hl, w, hw, rfl, rfl⟩
    exact ⟨hl, hw⟩
  · rintro ⟨hk, hv⟩
    exact ⟨k, hk, v, hv, rfl, rfl⟩

theorem under_map_same (k : κ) (vs : List ν) : under k (vs.map (Prod.mk k)) = vs := by
  induction vs with
  | nil => rfl
  | cons v vs ih => simp [under]

theorem under_map_other {k l : κ} (h : l ≠ k) (vs : List ν) :
    under k (vs.map (Prod.mk l)) = [] := by
  simp [under, h]

theorem under_gathered_of_not_mem {k : κ} {ks : List κ} (hk : k ∉ ks) (ps : List (κ × ν)) :
    under k (gathered ks ps) = [] := by
  induction ks with
  | nil => rfl
  | cons l ks ih =>
    obtain ⟨hl, hks⟩ := not_or.1 (List.mem_cons.not.1 hk)
    rw [gathered, List.flatMap_cons, under_append, under_map_other (Ne.symm hl)]
    exact ih hks

/-- Gathering keeps what stands under a key. -/
theorem under_gathered {k : κ} {ks : List κ} (hnodup : ks.Nodup) (hk : k ∈ ks)
    (ps : List (κ × ν)) : under k (gathered ks ps) = under k ps := by
  induction ks with
  | nil => cases hk
  | cons l ks ih =>
    obtain ⟨hl, hks⟩ := List.nodup_cons.1 hnodup
    rw [gathered, List.flatMap_cons, under_append]
    by_cases hkl : l = k
    · subst hkl
      rw [under_map_same]
      exact (congrArg _ (under_gathered_of_not_mem hl ps)).trans (List.append_nil _)
    · rw [under_map_other hkl]
      exact ih hks (List.mem_of_ne_of_mem (Ne.symm hkl) hk)

end CardArchive
