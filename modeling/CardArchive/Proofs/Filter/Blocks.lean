import CardArchive.Proofs.Filter.Printings
import CardArchive.Proofs.Statement.Joins
import CardArchive.Proofs.Store.Stock

/-!
# Printings by the blocks of their sets

A set may belong to several blocks, and a block may hold several sets. What blocks ask of
a printing itself is asked of its set, by the lists of sets that the catalog has for each
block; what they ask of its card is asked of the stored blocks, joined to the printings.
With a catalog of the same tables both say the same, and blocks select by the law of
sets, artists and rarities.

## What this module delivers

* `Tables.inBlock` and `Tables.blockPairs`: the blocks of printings and of their cards.
* `lists_blocks`: what the printings with their blocks joined to them put side by side.
* `admits_storedBlocks`: what the fragment of the blocks admits.
* `block_category_selects`: the printings that blocks select.
-/

set_option autoImplicit false

namespace CardArchive

open CardArchive.Numbering

/-- Whether the set of a printing belongs to a block. -/
def Tables.inBlock (t : Tables) (q : PrintingRow) (block : String) : Prop :=
  ⟨q.expansion, block⟩ ∈ t.blocks

instance (t : Tables) (q : PrintingRow) (block : String) : Decidable (t.inBlock q block) :=
  inferInstanceAs (Decidable (_ ∈ _))

/-- Every card with the blocks of the sets of its printings. -/
def Tables.blockPairs (t : Tables) : List (String × String) :=
  t.printings.flatMap fun q =>
    (t.blocks.filter fun b => b.expansion = q.expansion).map fun b => (q.card, b.block)

section

variable {t : Tables}

theorem mem_blockPairs {card block : String} :
    (card, block) ∈ t.blockPairs ↔ t.HasPrinting t.inBlock card block := by
  simp only [Tables.blockPairs, List.mem_flatMap, List.mem_map, List.mem_filter,
    decide_eq_true_eq, Prod.mk.injEq, Tables.HasPrinting, Tables.inBlock]
  constructor
  · rintro ⟨q, hq, ⟨expansion, _⟩, ⟨hb, rfl⟩, hcard, rfl⟩
    exact ⟨q, hq, hcard, hb⟩
  · rintro ⟨q, hq, hcard, hb⟩
    exact ⟨q, hq, _, ⟨hb, rfl⟩, hcard, rfl⟩

/-! ## Printings with their blocks -/

variable {printing block : String} (hne : printing ≠ block)
include hne

theorem blockJoin_isLocal (db : Relations) : (blockJoin printing block).IsLocal db printing :=
  isLocal_equal hne

/-- Beside a printing, the join puts the rows of its set. -/
theorem blockJoin_puts {q : PrintingRow} {r : Record} :
    (blockJoin printing block).Puts t.relations printing q.record r ↔
      ∃ b ∈ t.blocks, b.expansion = q.expansion ∧ r = b.record := by
  have hblocks : t.relations "Block" = t.blocks.map BlockRow.record := rfl
  have hset : q.record.cell "expansion" = .text q.expansion := rfl
  rw [blockJoin, puts_equal hne, hblocks, hset, List.mem_map]
  constructor
  · rintro ⟨⟨b, hb, rfl⟩, -, hsame⟩
    exact ⟨b, hb, (Cell.text.inj hsame).symm, rfl⟩
  · rintro ⟨b, hb, hsame, rfl⟩
    exact ⟨⟨b, hb, rfl⟩, by simp, congrArg Cell.text hsame.symm⟩

/-- The printings with their blocks joined to them put every card beside the blocks of the
sets of its printings. -/
theorem lists_blocks :
    t.relations.Lists printingTable [blockJoin printing block] ⟨printing, "card_name"⟩
      ⟨block, "block"⟩ t.blockPairs := by
  intro scope k v
  have hlocal : ∀ j ∈ [blockJoin printing block], j.IsLocal t.relations printing :=
    List.forall_mem_singleton.2 (blockJoin_isLocal hne t.relations)
  have hprinting : printing ∉ [blockJoin printing block].map Join.source :=
    fun h => hne (List.mem_singleton.1 h)
  simp only [mem_extendAll hlocal (List.nodup_singleton _), List.forall_mem_singleton]
  constructor
  · rintro ⟨s, ⟨s₀, hs₀, hputs, hsame⟩, rfl, rfl⟩
    obtain ⟨r, hr, rfl⟩ := List.mem_map.1 hs₀
    obtain ⟨q, hq, rfl⟩ := List.mem_map.1 hr
    rw [Scope.bind_self] at hputs
    obtain ⟨b, hb, hset, hrecord⟩ := (blockJoin_puts hne).1 hputs
    have hcard : s printing = q.record := (hsame printing hprinting).trans (Scope.bind_self _ _ _)
    refine ⟨(q.card, b.block), mem_blockPairs.2 ⟨q, hq, rfl, ?_⟩, ?_, ?_⟩
    · rw [Tables.inBlock, ← hset]
      exact hb
    · rw [Scope.cell, hcard]
      rfl
    · have hblock : s block = b.record := hrecord
      rw [Scope.cell, hblock]
      rfl
  · rintro ⟨⟨card, name⟩, hp, rfl, rfl⟩
    obtain ⟨q, hq, rfl, hb⟩ := mem_blockPairs.1 hp
    refine ⟨(scope.bind printing q.record).bind block (BlockRow.record ⟨q.expansion, name⟩),
      ⟨scope.bind printing q.record, ?_, ?_, ?_⟩, ?_, ?_⟩
    · exact List.mem_map_of_mem (List.mem_map_of_mem hq)
    · rw [Scope.bind_self, blockJoin_puts hne]
      exact ⟨_, hb, rfl, Scope.bind_self _ _ _⟩
    · intro a ha
      exact Scope.bind_ne (fun h => ha (List.mem_singleton.2 h)) _ _
    · rw [Scope.cell, Scope.bind_ne hne, Scope.bind_self]
      rfl
    · rw [Scope.cell, Scope.bind_self]
      rfl

end

/-! ## The law of the blocks -/

section

variable {t : Tables}

theorem mem_setsOfAll_blockSets {q : PrintingRow} {names : List String} :
    q.expansion ∈ t.blockSets.setsOfAll names ↔ ∃ b ∈ names, t.inBlock q b := by
  simp only [mem_setsOfAll, mem_setsOf_blockSets, Tables.inBlock]

/-- With the blocks of the same tables, the fragment of the blocks admits what the law
accepts. -/
theorem admits_storedBlocks {r : PrintingRow} (hr : r ∈ t.printings) (es : List Entry) (n : Nat) :
    ((fragmentOf ⟨aliasName 0, t.blockSets⟩ .block es).build n).Admits t.relations r.record ↔
      t.AcceptsPrinting t.inBlock es r := by
  have hkey : (outerScope r.record).cell ⟨aliasName 0, "card_name"⟩ = .text r.card :=
    cell_outerScope _ _
  have hset : (outerScope r.record).cell ⟨aliasName 0, "expansion"⟩ = .text r.expansion :=
    cell_outerScope _ _
  have hfresh : ∀ m, aliasName m ≠ aliasName (m + 1) := fun m => aliasName_ne m.lt_succ_self
  have hnodup : (split es).must.Nodup := nodup_eraseDups _
  -- a set is in the list of some blocks exactly if it belongs to one of them
  refine holds_spanning hr (holds_ownTests hset (fun _ => mem_setsOfAll_blockSets) _ _)
    (fun hmust m => ?_) (fun m => ?_) n
  · refine (holds_selectCovering (lists_blocks (hfresh m)) hnodup hmust hkey).trans ?_
    simp only [mem_blockPairs]
  · refine (holds_selectMembers (lists_blocks (hfresh m)) hkey).trans ?_
    simp only [mem_blockPairs]

end

/-- **Blocks select by the same law.** After any changes of the archive, the catalog of what
is stored can be loaded, and over it any values of blocks select exactly the printings whose
set belongs to no forbidden block; whose set belongs to a required or an alternative one, if
there are any; whose card has a printing in a set of every required one; and whose card has a
printing in a set of an alternative one, if blocks are both required and alternative. -/
theorem block_category_selects (changes : List Change) {es : List Entry} (hne : es ≠ [])
    (hv : ∀ e ∈ es, e.isValue = true) :
    let t := (Database.after changes).tables
    ∃ catalog, t.catalog = .ok catalog ∧
      t.Selects ⟨catalog, .ofEntries .block es⟩ (t.AcceptsPrinting t.inBlock es) := by
  intro t
  obtain ⟨catalog, hcatalog, hblocks, -⟩ := catalog_loads t
  obtain ⟨fitting, hfit⟩ := exists_catalog_fits (c := .block) rfl hv
  refine ⟨catalog, hcatalog, selects_ofEntries hne hfit (printings_nodup_after changes) ?_⟩
  rw [hblocks]
  exact fun r hr => admits_storedBlocks hr es 1

/-- One block is required and another one is an alternative. -/
def mirageAndLater : List Entry :=
  [.value "Mirage" .mustInclude, .value "Time Spiral" .oneOf, .value "Ice Age" .disallow]

theorem mirageAndLater_select :
    mirageAndLater ≠ [] ∧ (∀ e ∈ mirageAndLater, e.isValue = true) ∧
      ∃ catalog keys,
        (Database.after [.insertSet wholeSet, .insertSet reprintSet]).tables.catalog =
          .ok catalog ∧
        (Database.after [.insertSet wholeSet, .insertSet reprintSet]).tables.select
          ⟨catalog, .ofEntries .block mirageAndLater⟩ = .ok keys ∧
        ⟨"Asmira", "Mirage", "210"⟩ ∈ keys ∧ ⟨"Asmira", "Time Spiral", "121"⟩ ∈ keys := by
  have hvalues : ∀ e ∈ mirageAndLater, e.isValue = true := by decide
  have hne : mirageAndLater ≠ [] := List.cons_ne_nil _ _
  obtain ⟨catalog, hcatalog, keys, hkeys, -, -, hlaw⟩ := block_category_selects
    [.insertSet wholeSet, .insertSet reprintSet] hne hvalues
  have hlaw := fun r hr => (hlaw r hr).2
  refine ⟨hne, hvalues, catalog, keys, hcatalog, hkeys,
    hlaw ⟨"Asmira", "Mirage", "210", "rare", "", ""⟩ ?_ ?_,
    hlaw ⟨"Asmira", "Time Spiral", "121", "special", "", ""⟩ ?_ ?_⟩ <;> decide +kernel

end CardArchive
