import CardArchive.Store.Vocabulary
import Mathlib.Tactic

/-!
# The catalog of the tables

The catalog of what is stored can always be loaded. Its vocabularies are those of the
tables, and under each block it has the sets of that block's rows.

## What this module delivers

* `catalog_loads`: the catalog of any tables.
* `mem_setsOf_blockSets`, `mem_setsOfAll`: the sets of blocks.
-/

set_option autoImplicit false

namespace CardArchive

/-- The catalog of what is stored is always loaded, and has the vocabularies and the
blocks of the tables. -/
theorem catalog_loads (t : Tables) :
    ∃ c : Catalog, t.catalog = .ok c ∧ c.blocks = t.blockSets ∧
      ∀ n ∈ requiredVocabularies, c.vocabulary? n = t.vocabulary? n := by
  refine ⟨_, rfl, rfl, ?_⟩
  intro n hn
  simp only [requiredVocabularies, List.mem_cons, List.not_mem_nil, or_false] at hn
  rcases hn with rfl | rfl | rfl | rfl | rfl | rfl | rfl | rfl | rfl <;> rfl

/-- Under a block are the sets that have a row for it. -/
theorem mem_setsOf_blockSets {t : Tables} {block set : String} :
    set ∈ t.blockSets.setsOf block ↔ ⟨set, block⟩ ∈ t.blocks := by
  have hrows : set ∈ (t.blocks.filter fun r => r.block == block).map BlockRow.expansion ↔
      ⟨set, block⟩ ∈ t.blocks := by
    rw [List.mem_map]
    constructor
    · rintro ⟨⟨e, b⟩, hr, rfl⟩
      obtain ⟨hmem, hb⟩ := List.mem_filter.1 hr
      obtain rfl : b = block := eq_of_beq hb
      exact hmem
    · intro hmem
      exact ⟨_, List.mem_filter.2 ⟨hmem, beq_self_eq_true block⟩, rfl⟩
  rw [← hrows, Blocks.setsOf]
  split
  · rename_i found hfound
    have hname : (found.1 == block) = true := by
      have hfits := List.find?_some hfound
      exact hfits
    -- what was found under the name is the list of the rows of this block
    obtain ⟨b, -, rfl⟩ := List.mem_map.1 (List.mem_of_find?_eq_some hfound)
    obtain rfl : b = block := eq_of_beq hname
    rfl
  · rename_i hnone
    rw [hrows]
    constructor
    · intro h
      cases h
    · -- a row for the block would have put it among the blocks
      intro hmem
      have hblock : block ∈ (t.blocks.map BlockRow.block).eraseDups :=
        List.mem_eraseDups.2 (List.mem_map.2 ⟨_, hmem, rfl⟩)
      have hother := List.find?_eq_none.1 hnone _ (List.mem_map.2 ⟨block, hblock, rfl⟩)
      exact absurd (beq_self_eq_true block) hother

theorem mem_setsOfAll {blocks : Blocks} {names : List String} {set : String} :
    set ∈ blocks.setsOfAll names ↔ ∃ b ∈ names, set ∈ blocks.setsOf b := by
  rw [Blocks.setsOfAll, Text.mem_sorted, List.mem_eraseDups, List.mem_flatMap]

end CardArchive
