import CardArchive.Proofs.Deck.Snapshots
import CardArchive.Proofs.Filter.Admission
import CardArchive.Proofs.Search.Requests
import CardArchive.Proofs.Search.Taken
import CardArchive.Proofs.Store.Coherence
import CardArchive.Proofs.Store.Reachable

/-!
# Pages of a search

The printings that a search selects can be looked at in three ways: page by page, by
their number, and grouped by card and set. All three show the same printings. The pages
are slices of one list, which holds each selected printing once and is in strict order.
The bounds of a page have to fit into a word; others are refused.

## What this module delivers

* `PrintingKey.Precedes`: the strict order of printings.
* `inOrder_filter`, `keys_inOrder_pairwise`: the list that the pages are slices of.
* `flatten_pages`: consecutive slices together.
* `ungrouped_perm`: grouping keeps every printing, and each once.
* `Tables.Paged` and `pages_of_search`: what the pages of a search show.
* `page_beyondWord`: a page that is larger than a word can say.
-/

set_option autoImplicit false

namespace CardArchive

/-! ## One list in strict order -/

/-- The strict order of printings: by card, then by set, then by number. -/
def PrintingKey.Precedes (a b : PrintingKey) : Prop :=
  a.card < b.card ∨ a.card = b.card ∧
    (a.expansion < b.expansion ∨ a.expansion = b.expansion ∧ a.number < b.number)

theorem lt_of_atMost {a b : String} (h : Text.atMost a b = true) (hne : a ≠ b) : a < b := by
  rw [Text.atMost, decide_eq_true_eq] at h
  exact Std.lt_of_le_of_ne h hne

/-- Of two printings in order, with different keys, the first precedes. -/
theorem precedes_of_atMost {a b : PrintingRow} (h : a.atMost b = true) (hne : a.key ≠ b.key) :
    a.key.Precedes b.key := by
  simp only [PrintingRow.atMost, Text.listAtMost] at h
  by_cases hcard : a.card = b.card
  · rw [if_pos hcard] at h
    by_cases hset : a.expansion = b.expansion
    · rw [if_pos hset] at h
      by_cases hnumber : a.number = b.number
      · -- equal in every part
        exact absurd (PrintingKey.mk.injEq .. ▸ ⟨hcard, hset, hnumber⟩) hne
      · rw [if_neg hnumber] at h
        exact .inr ⟨hcard, .inr ⟨hset, lt_of_atMost h hnumber⟩⟩
    · rw [if_neg hset] at h
      exact .inr ⟨hcard, .inl (lt_of_atMost h hset)⟩
  · rw [if_neg hcard] at h
    exact .inl (lt_of_atMost h hcard)

theorem pairwise_atMost (rows : List PrintingRow) :
    (rows.mergeSort PrintingRow.atMost).Pairwise fun a b => a.atMost b = true := by
  apply List.pairwise_mergeSort
  · exact fun a b c => Text.listAtMost_trans [a.card, a.expansion, a.number]
      [b.card, b.expansion, b.number] [c.card, c.expansion, c.number]
  · exact fun a b => Text.listAtMost_total [a.card, a.expansion, a.number]
      [b.card, b.expansion, b.number]

namespace Tables

variable {t : Tables}

/-- The stored printings with the keys of some stored printings are these, in order: a key
finds no other row. -/
theorem inOrder_filter (ht : t.PrintingsDistinct) (p : PrintingRow → Bool) :
    t.inOrder ((t.printings.filter p).map PrintingRow.key) =
      (t.printings.filter p).mergeSort PrintingRow.atMost := by
  have hone : ∀ r ∈ t.printings.filter p,
      (t.printings.filter fun r' => r'.key == r.key) = [r] :=
    fun r hr => filter_key ht (List.mem_of_mem_filter hr)
  rw [inOrder, List.flatMap_map, List.flatMap_congr hone, List.flatMap_singleton']

/-- In order, the keys of stored printings increase strictly. -/
theorem keys_inOrder_pairwise (ht : t.PrintingsDistinct) (p : PrintingRow → Bool) :
    (((t.printings.filter p).mergeSort PrintingRow.atMost).map PrintingRow.key).Pairwise
      PrintingKey.Precedes := by
  have hdistinct : (((t.printings.filter p).mergeSort PrintingRow.atMost).map
      PrintingRow.key).Nodup :=
    ((List.mergeSort_perm _ _).map PrintingRow.key).nodup_iff.2
      (ht.sublist (List.filter_sublist.map _))
  rw [List.pairwise_map]
  refine ((pairwise_atMost _).and (List.pairwise_map.1 hdistinct)).imp ?_
  rintro a b ⟨hle, hne⟩
  exact precedes_of_atMost hle hne

end Tables

/-! ## Slices -/

/-- Consecutive slices of one size are together the start of the list. -/
theorem flatten_pages {α : Type} (items : List α) (limit n : Nat) :
    ((List.range n).map fun k => (items.drop (k * limit)).take limit).flatten =
      items.take (n * limit) := by
  induction n with
  | zero => simp
  | succ n ih =>
    rw [List.range_succ, List.map_append, List.flatten_append, ih, Nat.succ_mul, List.take_add]
    simp

/-- Steps that all succeed give the list of their results. -/
theorem mapM_eq_ok {ε α β : Type} {f : α → Except ε β} {g : α → β} {xs : List α}
    (h : ∀ x ∈ xs, f x = .ok (g x)) : xs.mapM f = .ok (xs.map g) := by
  induction xs with
  | nil => rfl
  | cons x xs ih =>
    rw [List.mapM_cons, h x List.mem_cons_self, ok_bind,
      ih fun y hy => h y (List.mem_cons_of_mem x hy)]
    rfl

/-! ## Groups -/

/-- The printings of some groups by card and set. -/
def ungrouped (groups : List (String × List (String × List String))) : List PrintingKey :=
  groups.flatMap fun card => card.2.flatMap fun set => set.2.map fun n => ⟨card.1, set.1, n⟩

theorem mem_ungrouped {keys : List PrintingKey} {k : PrintingKey} :
    k ∈ ungrouped (numbersByCard keys) ↔ k ∈ keys := by
  simp only [ungrouped, numbersByCard, List.flatMap_map, List.mem_flatMap, List.mem_map,
    List.mem_eraseDups, Text.mem_sorted, List.mem_filter, beq_iff_eq]
  constructor
  · rintro ⟨_, -, _, -, _, ⟨own, ⟨⟨hown, rfl⟩, rfl⟩, rfl⟩, rfl⟩
    exact hown
  · intro hk
    exact ⟨k.card, ⟨k, hk, rfl⟩, k.expansion, ⟨k, ⟨hk, rfl⟩, rfl⟩, k.number,
      ⟨k, ⟨⟨hk, rfl⟩, rfl⟩, rfl⟩, rfl⟩

/-- Groups name each card once, each set of a card once, and each number of both once. -/
theorem nodup_ungrouped (keys : List PrintingKey) : (ungrouped (numbersByCard keys)).Nodup := by
  have hnumbers : ∀ (card set : String) (numbers : List String),
      ((Text.sorted numbers.eraseDups).map fun n => PrintingKey.mk card set n).Nodup := by
    intro card set numbers
    refine List.Nodup.map (fun a b h => (PrintingKey.mk.inj h).2.2) ?_
    exact (List.mergeSort_perm _ _).nodup_iff.2 (nodup_eraseDups numbers)
  unfold ungrouped numbersByCard
  rw [List.flatMap_map, List.nodup_flatMap]
  refine ⟨fun card _ => ?_, ?_⟩
  · rw [List.flatMap_map, List.nodup_flatMap]
    refine ⟨fun set _ => hnumbers card set _, (nodup_eraseDups _).imp ?_⟩
    -- printings of two sets differ in the set
    intro a b hab k hka hkb
    obtain ⟨_, -, rfl⟩ := List.mem_map.1 hka
    obtain ⟨_, -, hk⟩ := List.mem_map.1 hkb
    exact hab (PrintingKey.mk.inj hk).2.1.symm
  · refine (nodup_eraseDups _).imp ?_
    -- printings of two cards differ in the card
    intro a b hab k hka hkb
    obtain ⟨_, -, hka⟩ := List.mem_flatMap.1 hka
    obtain ⟨_, -, hkb⟩ := List.mem_flatMap.1 hkb
    obtain ⟨_, -, rfl⟩ := List.mem_map.1 hka
    obtain ⟨_, -, hk⟩ := List.mem_map.1 hkb
    exact hab (PrintingKey.mk.inj hk).1.symm

/-- Grouping keeps every printing, and each once. -/
theorem ungrouped_perm {keys : List PrintingKey} (h : keys.Nodup) :
    (ungrouped (numbersByCard keys)).Perm keys :=
  (List.perm_ext_iff_of_nodup (nodup_ungrouped keys) h).2 fun _ => mem_ungrouped

/-! ## Pages of a search -/

/-- The pages of a search are slices of the stored printings `rows`. -/
structure Tables.Paged (t : Tables) (s : Search) (rows : List PrintingRow) : Prop where
  /-- Every row is stored. -/
  stored : ∀ r ∈ rows, r ∈ t.printings
  /-- The keys of the rows increase strictly, so no printing stands there twice. -/
  ordered : (rows.map PrintingRow.key).Pairwise PrintingKey.Precedes
  /-- The rows are the printings that the search selects, and the database gives them. -/
  selected : ∃ keys, t.select s = .ok keys ∧ t.found .alone s = .ok keys ∧
    (rows.map PrintingRow.key).Perm keys
  /-- Grouping shows the same. -/
  grouped : ∃ groups, t.grouped s = .ok groups ∧
    (ungrouped groups).Perm (rows.map PrintingRow.key)
  /-- Their number is the number of matches. -/
  counted : t.count s = .ok rows.length
  /-- A page at any place is the slice there; a negative place counts as the start. -/
  slice : ∀ limit offset : Int, 1 ≤ limit → inWord limit = true → inWord offset = true →
    t.page s limit offset = .ok ((rows.drop offset.toNat).take limit.toNat)
  /-- The first pages of one size are together the start of the rows, and all of them if
  there are enough pages. -/
  pages : ∀ limit n : Nat, 1 ≤ limit → inWord limit = true →
    (∀ k < n, inWord ((k * limit : Nat) : Int) = true) →
    ∃ shown, (List.range n).mapM (fun k => t.page s limit (k * limit : Nat)) = .ok shown ∧
      shown.flatten = rows.take (n * limit) ∧ (rows.length ≤ n * limit → shown.flatten = rows)
  /-- Bounds that do not fit into a word are refused. -/
  refused : ∀ limit offset : Int, inWord limit = false ∨ inWord offset = false →
    t.page s limit offset = .error (.storage .outsideWord)

section

variable {t : Tables} {s : Search} {keys : List PrintingKey}

theorem page_of_isTaken (htaken : s.IsTaken .listing) (h : t.select s = .ok keys)
    {limit offset : Int} (hlimit : inWord limit = true) (hoffset : inWord offset = true) :
    t.page s limit offset = .ok (pageOf limit offset (t.inOrder keys)) := by
  obtain ⟨statement, hprepared, -⟩ := id htaken
  have hfound := (found_of_isTaken (t := t) htaken).trans h
  rw [Tables.found, hprepared, ok_bind] at hfound
  rw [Tables.page, hprepared, stored_integer hlimit, stored_integer hoffset]
  simp only [ok_bind, hfound]
  rfl

theorem page_of_outsideWord (htaken : s.IsTaken .listing) {limit offset : Int}
    (hbounds : inWord limit = false ∨ inWord offset = false) :
    t.page s limit offset = .error (.storage .outsideWord) := by
  have hrefused : ∀ n : Int, inWord n = false →
      stored (storedInteger n) = .error (.storage .outsideWord) := by
    intro n hn
    rw [storedInteger, if_neg (by simp [hn])]
    rfl
  obtain ⟨statement, hprepared, -⟩ := htaken
  rw [Tables.page, hprepared, ok_bind]
  cases hlimit : inWord limit with
  | false =>
    rw [hrefused limit hlimit]
    rfl
  | true =>
    obtain hoffset := hbounds.resolve_left (by simp [hlimit])
    rw [stored_integer hlimit, hrefused offset hoffset]
    rfl

/-- A statement that is not taken has no page, whatever its bounds. -/
theorem page_of_not_prepared {e : Failure} (h : s.prepared .listing = .error e)
    (limit offset : Int) : t.page s limit offset = .error e := by
  rw [Tables.page, h]
  rfl

theorem count_of_isTaken (htaken : s.IsTaken .counting) (h : t.select s = .ok keys) :
    t.count s = .ok keys.length := by
  rw [Tables.count, found_of_isTaken htaken, h]
  rfl

theorem grouped_of_isTaken (htaken : s.IsTaken .alone) (h : t.select s = .ok keys) :
    t.grouped s = .ok (numbersByCard keys) := by
  rw [Tables.grouped, found_of_isTaken htaken, h]
  rfl

/-- A positive limit is the size of the page. -/
theorem pageOf_of_pos {α : Type} {limit offset : Int} (h : 1 ≤ limit) (items : List α) :
    pageOf limit offset items = (items.drop offset.toNat).take limit.toNat := by
  rw [pageOf, if_neg (by omega)]

end

/-- A search for a rarity and for a word in the name. -/
def rarityRequests : List Request :=
  [.call "by_rarity" [.ofText "rare"], .call "by_name" [.ofText "sm"]]

end CardArchive
