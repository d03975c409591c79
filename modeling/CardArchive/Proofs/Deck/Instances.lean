import CardArchive.Deck.Basic
import CardArchive.Proofs.Distinct
import CardArchive.Proofs.Outcome

/-!
# Checked decks

An instance that was made of parts has passed the checks of instances, and a deck that was
made of instances those of decks. Both are collected here as invariants. They are all that
the checks ask for: an instance that has them passes the checks again, unchanged.

## What this module delivers

* `DeckInstance.Checked` and `Deck.Checked`: what is known of instances and decks.
* `ofParts_checked`, `Deck.ofParts_checked`: whatever is made of parts is checked.
* `Checked.ofParts`: a checked instance is made of its own parts.
* `CheckedInstance` and `CheckedDeck`: the values that can be handed to the archive.
-/

set_option autoImplicit false

namespace CardArchive

/-! ## Keyed lists -/

section Keyed

variable {κ α : Type} [DecidableEq κ]

theorem putKey_of_not_mem {key : κ} {value : α} {pairs : List (κ × α)}
    (h : key ∉ pairs.map Prod.fst) : putKey key value pairs = pairs ++ [(key, value)] := by
  induction pairs with
  | nil => rfl
  | cons p rest ih =>
    obtain ⟨k, v⟩ := p
    simp only [List.map_cons, List.mem_cons, not_or] at h
    rw [putKey, if_neg (Ne.symm h.1), ih h.2, List.cons_append]

theorem map_fst_putKey_of_mem {key : κ} {value : α} {pairs : List (κ × α)}
    (h : key ∈ pairs.map Prod.fst) :
    (putKey key value pairs).map Prod.fst = pairs.map Prod.fst := by
  induction pairs with
  | nil => cases h
  | cons p rest ih =>
    obtain ⟨k, v⟩ := p
    rw [putKey]
    split
    · rfl
    · rename_i hk
      rcases List.mem_cons.1 h with hfirst | hrest
      · exact absurd hfirst.symm hk
      · rw [List.map_cons, List.map_cons, ih hrest]

/-- Putting a key keeps the keys different from each other. -/
theorem nodup_putKey {key : κ} {value : α} {pairs : List (κ × α)}
    (h : (pairs.map Prod.fst).Nodup) : ((putKey key value pairs).map Prod.fst).Nodup := by
  by_cases hkey : key ∈ pairs.map Prod.fst
  · rw [map_fst_putKey_of_mem hkey]
    exact h
  · rw [putKey_of_not_mem hkey, List.map_append]
    exact List.Nodup.append h (List.nodup_singleton key) (List.disjoint_singleton.2 hkey)

/-- No key occurs twice among the last values. -/
theorem nodup_lastValues (pairs : List (κ × α)) : ((lastValues pairs).map Prod.fst).Nodup := by
  have run : ∀ (pairs acc : List (κ × α)), (acc.map Prod.fst).Nodup →
      ((pairs.foldl (fun acc p => putKey p.1 p.2 acc) acc).map Prod.fst).Nodup := by
    intro pairs
    induction pairs with
    | nil => exact fun acc h => h
    | cons p rest ih => exact fun acc h => ih _ (nodup_putKey h)
  exact run pairs [] List.nodup_nil

/-- Pairs without a repeated key are their own last values. -/
theorem lastValues_of_nodup {pairs : List (κ × α)} (h : (pairs.map Prod.fst).Nodup) :
    lastValues pairs = pairs := by
  have run : ∀ (pairs acc : List (κ × α)), ((acc ++ pairs).map Prod.fst).Nodup →
      pairs.foldl (fun acc p => putKey p.1 p.2 acc) acc = acc ++ pairs := by
    intro pairs
    induction pairs with
    | nil => exact fun acc _ => (List.append_nil acc).symm
    | cons p rest ih =>
      intro acc h
      -- the next key is none of those that were put before
      have hfresh : p.1 ∉ acc.map Prod.fst := by
        rw [List.map_append, List.map_cons] at h
        exact fun hmem => (List.nodup_append.1 h).2.2 p.1 hmem p.1 List.mem_cons_self rfl
      rw [List.foldl_cons, putKey_of_not_mem hfresh, ih _ (by simpa using h)]
      simp
  exact run pairs [] h

end Keyed

/-! ## Instances -/

namespace DeckInstance

/-- What the checks establish of an instance. -/
structure Checked (i : DeckInstance) : Prop where
  valid : i.creation.isValid = true
  names_nodup : (i.categories.map Prod.fst).Nodup
  cards_nodup : ∀ c ∈ i.categories, c.2.Nodup
  printings_nodup : (i.quantities.map Prod.fst).Nodup
  positive : ∀ q ∈ i.quantities, 1 ≤ q.2
  categorized : ∀ q ∈ i.quantities, q.1.card ∈ i.cards

theorem mem_cardsOf {categories : List (String × List String)} {card : String} :
    card ∈ cardsOf categories ↔ ∃ c ∈ categories, card ∈ c.2 := by
  rw [cardsOf, List.mem_eraseDups, List.mem_flatMap]

theorem quantity?_eq_some {v : Value} {n : Int} : quantity? v = some n ↔ v = .int n ∧ 1 ≤ n := by
  cases v with
  | int m =>
    rw [quantity?]
    split
    · rename_i hm
      constructor
      · rintro ⟨⟩
        exact ⟨rfl, hm⟩
      · rintro ⟨⟨⟩, -⟩
        rfl
    · rename_i hm
      constructor
      · intro h
        cases h
      · rintro ⟨⟨⟩, h⟩
        exact absurd h hm
  | _ => simp [quantity?]

/-- The checks of quantities let exactly the positive integers of cards pass that are in some
category, and pass them on as they are. -/
theorem checkQuantities_eq_ok {cards : List String} {values : List (Printing × Value)}
    {quantities : List (Printing × Int)} :
    checkQuantities cards values = .ok quantities ↔
      values = quantities.map (fun q => (q.1, Value.int q.2)) ∧
        ∀ q ∈ quantities, 1 ≤ q.2 ∧ q.1.card ∈ cards := by
  induction values generalizing quantities with
  | nil =>
    rw [checkQuantities]
    cases quantities with
    | nil => simp
    | cons q rest => simp
  | cons p rest ih =>
    obtain ⟨printing, v⟩ := p
    cases hv : quantity? v with
    | none =>
      -- what is no quantity is refused, and is not the value of any
      simp only [checkQuantities, hv]
      constructor
      · intro h
        obtain ⟨n, hn, -⟩ := bind_eq_ok.1 h
        exact absurd hn throw_ne_ok
      · rintro ⟨hvalues, hall⟩
        cases quantities with
        | nil => cases hvalues
        | cons q others =>
          obtain ⟨hfirst, -⟩ := List.cons.inj hvalues
          have hq := quantity?_eq_some.2 ⟨(Prod.mk.inj hfirst).2, (hall q List.mem_cons_self).1⟩
          rw [hv] at hq
          cases hq
    | some n =>
      obtain ⟨rfl, hn⟩ := quantity?_eq_some.1 hv
      simp only [checkQuantities, hv, pure_bind]
      rw [refuse_eq_ok, bind_eq_ok]
      constructor
      · rintro ⟨hcard, others, hothers, hresult⟩
        obtain rfl := pure_eq_ok.1 hresult
        obtain ⟨hrest, hall⟩ := ih.1 hothers
        have hcard' : printing.card ∈ cards := by simpa using hcard
        exact ⟨by rw [hrest, List.map_cons], List.forall_mem_cons.2 ⟨⟨hn, hcard'⟩, hall⟩⟩
      · rintro ⟨hvalues, hall⟩
        cases quantities with
        | nil => cases hvalues
        | cons q others =>
          obtain ⟨hfirst, hrest⟩ := List.cons.inj hvalues
          obtain ⟨rfl, hn'⟩ := Prod.mk.inj hfirst
          obtain rfl : n = q.2 := Value.int.inj hn'
          obtain ⟨hhead, htail⟩ := List.forall_mem_cons.1 hall
          exact ⟨by simpa using hhead.2, others, ih.2 ⟨hrest, htail⟩, rfl⟩

/-- Whatever is made of parts is checked. -/
theorem ofParts_checked {deckId : Option Int} {creation : Option Timestamp}
    {categories : List (String × List String)} {quantities : List (Printing × Value)}
    {i : DeckInstance} (hvalid : ∀ t ∈ creation, t.isValid = true)
    (h : ofParts deckId creation categories quantities = .ok i) : i.Checked := by
  cases creation with
  | none =>
    obtain ⟨t, ht, -⟩ := bind_eq_ok.1 h
    exact absurd ht throw_ne_ok
  | some t =>
    rw [ofParts, pure_bind] at h
    obtain ⟨checked, hchecked, h⟩ := bind_eq_ok.1 h
    obtain rfl := pure_eq_ok.1 h
    obtain ⟨hvalues, hall⟩ := checkQuantities_eq_ok.1 hchecked
    have hprintings := nodup_lastValues quantities
    rw [hvalues, List.map_map] at hprintings
    refine ⟨hvalid t rfl, ?_, ?_, hprintings, fun q hq => (hall q hq).1,
      fun q hq => (hall q hq).2⟩
    · rw [List.map_map]
      exact nodup_lastValues categories
    · intro c hc
      obtain ⟨c', -, rfl⟩ := List.mem_map.1 hc
      exact nodup_eraseDups _

/-- A checked instance passes its checks, and stays as it is. -/
theorem Checked.ofParts {i : DeckInstance} (h : i.Checked) :
    DeckInstance.ofParts i.deckId (some i.creation) i.categories
      (i.quantities.map fun q => (q.1, Value.int q.2)) = .ok i := by
  have hcategories : (lastValues i.categories).map (fun c => (c.1, c.2.eraseDups)) =
      i.categories := by
    rw [lastValues_of_nodup h.names_nodup]
    conv_rhs => rw [← List.map_id i.categories]
    exact List.map_congr_left fun c hc => by rw [eraseDups_of_nodup (h.cards_nodup c hc), id]
  have hvalues : lastValues (i.quantities.map fun q => (q.1, Value.int q.2)) =
      i.quantities.map fun q => (q.1, Value.int q.2) := by
    apply lastValues_of_nodup
    rw [List.map_map]
    exact h.printings_nodup
  have hchecked : checkQuantities (cardsOf i.categories)
      (i.quantities.map fun q => (q.1, Value.int q.2)) = .ok i.quantities :=
    checkQuantities_eq_ok.2 ⟨rfl, fun q hq => ⟨h.positive q hq, h.categorized q hq⟩⟩
  simp only [DeckInstance.ofParts, pure_bind, hcategories, hvalues, hchecked]
  rfl

end DeckInstance

/-! ## Decks -/

/-- Items that are sorted by a number have their numbers in order. -/
theorem pairwise_mergeSort_le {α : Type} (f : α → Int) (xs : List α) :
    (xs.mergeSort fun a b => decide (f a ≤ f b)).Pairwise fun a b => f a ≤ f b := by
  have hsorted : (xs.mergeSort fun a b => decide (f a ≤ f b)).Pairwise
      fun a b => decide (f a ≤ f b) = true := by
    refine List.pairwise_mergeSort ?_ ?_ xs
    · intro a b c hab hbc
      simp only [decide_eq_true_eq] at hab hbc ⊢
      exact Int.le_trans hab hbc
    · intro a b
      simpa using Int.le_total (f a) (f b)
  exact hsorted.imp fun h => of_decide_eq_true h

namespace Deck

/-- Order of instances: the older one first. -/
def Older (a b : DeckInstance) : Prop := a.creation.instant ≤ b.creation.instant

/-- What the checks establish of a deck. -/
structure Checked (d : Deck) : Prop where
  named : d.name.truthy = true
  described : d.description.isNull = false
  nonempty : d.history ≠ []
  ordered : areOrdered d.history = true
  checked : ∀ i ∈ d.history, i.Checked

/-- Instances can be put in order of time exactly if all of them are of one kind. -/
theorem areOrdered_iff {history : List DeckInstance} :
    areOrdered history = true ↔
      ∃ floating, ∀ i ∈ history, i.creation.isFloating = floating := by
  cases history with
  | nil => simp [areOrdered]
  | cons i rest =>
    simp only [areOrdered, List.all_eq_true, beq_iff_eq, List.forall_mem_cons]
    exact ⟨fun h => ⟨_, rfl, h⟩, fun ⟨_, hi, h⟩ j hj => (h j hj).trans hi.symm⟩

theorem areOrdered_of_perm {a b : List DeckInstance} (h : a.Perm b) :
    areOrdered a = areOrdered b := by
  rw [Bool.eq_iff_iff, areOrdered_iff, areOrdered_iff]
  simp only [h.mem_iff]

theorem pairwise_inOrder (history : List DeckInstance) : (inOrder history).Pairwise Older :=
  pairwise_mergeSort_le (fun i => i.creation.instant) history

/-- A deck made of checked instances is checked. -/
theorem ofParts_checked {deckId : Option Int} {name description : Value}
    {history : List DeckInstance} {d : Deck} (hchecked : ∀ i ∈ history, i.Checked)
    (h : ofParts deckId name description history = .ok d) : d.Checked := by
  unfold ofParts at h
  split at h
  · cases h
  · rename_i hname
    split at h
    · cases h
    · rename_i hdescription
      split at h
      · cases h
      · rename_i hempty
        split at h
        · rename_i hordered
          cases h
          have hperm := inOrder_perm history
          refine ⟨by simpa using hname, by simpa using hdescription, ?_, ?_,
            fun i hi => hchecked i (hperm.mem_iff.1 hi)⟩
          · rintro hnil
            obtain rfl := List.perm_nil.1 (hperm.symm.trans (List.Perm.of_eq hnil))
            exact hempty rfl
          · rw [areOrdered_of_perm hperm]
            exact hordered
        · cases h

end Deck

/-- An instance that can be handed to the archive. -/
def CheckedInstance := { i : DeckInstance // i.Checked }

/-- A deck that can be handed to the archive. -/
def CheckedDeck := { d : Deck // d.Checked }

end CardArchive
