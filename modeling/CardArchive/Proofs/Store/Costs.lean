import CardArchive.Proofs.Card.Costs
import CardArchive.Proofs.Store.Steps

/-!
# Costs and the import of sets

A cost is stored with its card as it is written, and once more as the amounts that it
counts. Everything else of an import is the same without any costs: each step of it is
compared with the step that it takes when the cards give no cost, with the tables read
without costs.

## What this module delivers

* `IsStorable`: the costs whose amounts can be counted and stored.
* `Value.withoutCosts` and `Tables.withoutCosts`: a set and the tables with no cost.
* `map_bind_eq` and its siblings: two computations that agree in each of their steps.
* `addCardData_withoutCosts`, `addSet_withoutCosts`: a card and a set of storable costs are
  taken in as they are without their costs.
* `addSet_costs`: the costs of the cards that a set adds are storable.
* `costs_of_imports`: what a cost counts, and when it lets an import fail.
-/

set_option autoImplicit false

namespace CardArchive

/-! ## Computations side by side -/

section

variable {ε α α' β β' : Type} {f : α → Except ε β} {h : β → β'}

/-- Two computations agree, up to how their results are read, if they do so in each step. -/
theorem map_bind_eq {x : Except ε α} {y : Except ε α'} {f' : α' → Except ε β'} {g : α → α'}
    (hx : x.map g = y) (hf : ∀ a, x = .ok a → (f a).map h = f' (g a)) :
    (x >>= f).map h = y >>= f' := by
  subst hx
  cases x with
  | error e => rfl
  | ok a => exact hf a rfl

theorem map_bind_same {x : Except ε α} {f' : α → Except ε β'}
    (hf : ∀ a, x = .ok a → (f a).map h = f' a) : (x >>= f).map h = x >>= f' := by
  cases x with
  | error e => rfl
  | ok a => exact hf a rfl

/-- What is checked before the next step is refused by both. -/
theorem map_refuse_same {p : Prop} [Decidable p] {e : ε} {f : PUnit → Except ε β}
    {f' : PUnit → Except ε β'} (hf : ¬p → (f PUnit.unit).map h = f' PUnit.unit) :
    (if p then throw e >>= f else f PUnit.unit).map h =
      if p then throw e >>= f' else f' PUnit.unit := by
  by_cases hp : p
  · rw [if_pos hp, if_pos hp]
    rfl
  · rw [if_neg hp, if_neg hp, hf hp]

end

theorem map_stored {α β : Type} (x : Except StorageFault α) (g : α → β) :
    (stored x).map g = stored (x.map g) := by
  cases x with
  | error e => rfl
  | ok a => rfl

/-! ## Values without costs -/

namespace Value

/-- An object without one of its fields. -/
def without (field : String) : Value → Value
  | object fs => object (fs.filter fun f => f.1 != field)
  | v => v

/-- A list of other items. -/
def mapItems (g : Value → Value) : Value → Value
  | list xs => list (xs.map g)
  | v => v

/-- A set whose cards give no cost. -/
def withoutCosts : Value → Value
  | object fs => object (fs.map fun f =>
      (f.1, if f.1 = "cards" then f.2.mapItems (without "manaCost") else f.2))
  | v => v

section

variable {name field : String}

theorem lookup_without (h : name ≠ field) (fs : List (String × Value)) :
    lookup name (fs.filter fun f => f.1 != field) = lookup name fs := by
  induction fs with
  | nil => rfl
  | cons f fs ih =>
    obtain ⟨k, v⟩ := f
    by_cases hk : k = field
    · -- the field that is left out is not the one that is looked for
      rw [List.filter_cons_of_neg (by simp [hk]), ih, lookup, if_neg]
      rintro rfl
      exact h hk
    · rw [List.filter_cons_of_pos (by simp [hk]), lookup, lookup, ih]

theorem lookup_self_without (fs : List (String × Value)) :
    lookup field (fs.filter fun f => f.1 != field) = none := by
  induction fs with
  | nil => rfl
  | cons f fs ih =>
    obtain ⟨k, v⟩ := f
    by_cases hk : k = field
    · rw [List.filter_cons_of_neg (by simp [hk]), ih]
    · rw [List.filter_cons_of_pos (by simp [hk]), lookup, if_neg hk, ih]

@[simp]
theorem memberOr_without (h : name ≠ field) (v fallback : Value) :
    (v.without field).memberOr name fallback = v.memberOr name fallback := by
  cases v with
  | object fs => rw [without, memberOr, memberOr, lookup_without h]
  | _ => rfl

@[simp]
theorem memberOf_without (h : name ≠ field) (v : Value) :
    (v.without field).memberOf name = v.memberOf name := memberOr_without h v null

@[simp]
theorem item_without (h : name ≠ field) (v : Value) :
    (v.without field).item name = v.item name := by
  cases v with
  | object fs => rw [without, item, item, lookup_without h]
  | _ => rfl

@[simp]
theorem without_without (v : Value) : (v.without field).without field = v.without field := by
  cases v with
  | object fs => simp [without]
  | _ => rfl

theorem lookup_withoutCosts (name : String) (fs : List (String × Value)) :
    lookup name (fs.map fun f =>
      (f.1, if f.1 = "cards" then f.2.mapItems (without "manaCost") else f.2)) =
      (lookup name fs).map fun v =>
        if name = "cards" then v.mapItems (without "manaCost") else v := by
  induction fs with
  | nil => rfl
  | cons f fs ih =>
    obtain ⟨k, v⟩ := f
    rw [List.map_cons, lookup, lookup, ih]
    by_cases hk : k = name
    · rw [if_pos hk, if_pos hk, hk]
      rfl
    · rw [if_neg hk, if_neg hk]

theorem memberOf_withoutCosts (h : name ≠ "cards") (set : Value) :
    set.withoutCosts.memberOf name = set.memberOf name := by
  cases set with
  | object fs => simp [withoutCosts, lookup_withoutCosts, h]
  | _ => rfl

theorem item_withoutCosts (h : name ≠ "cards") (set : Value) :
    set.withoutCosts.item name = set.item name := by
  cases set with
  | object fs => simp [withoutCosts, item, lookup_withoutCosts, h]
  | _ => rfl

theorem item_cards_withoutCosts (set : Value) :
    (set.item "cards").map (mapItems (without "manaCost")) = set.withoutCosts.item "cards" := by
  cases set with
  | object fs =>
    rw [withoutCosts, item, item, lookup_withoutCosts]
    cases lookup "cards" fs with
    | none => rfl
    | some v => rfl
  | _ => rfl

theorem itemsAt_withoutCosts (set : Value) :
    set.withoutCosts.itemsAt "cards" = (set.itemsAt "cards").map (without "manaCost") := by
  cases set with
  | object fs =>
    rw [withoutCosts, itemsAt, itemsAt, field?, field?, lookup_withoutCosts]
    cases lookup "cards" fs with
    | none => rfl
    | some v =>
      cases v with
      | list xs => rfl
      | _ => rfl
  | _ => rfl

theorem holds_withoutCosts (name : String) (set : Value) :
    set.withoutCosts.holds name = set.holds name := by
  cases set with
  | object fs => simp [withoutCosts, holds, lookup_withoutCosts]
  | _ => rfl

/-- Leaving out a field of each item is leaving it out of what is listed: what is listed of a
value that is no list are texts. -/
theorem elements_mapItems (v : Value) :
    v.elements.map (List.map (without field)) = (v.mapItems (without field)).elements := by
  cases v with
  | text s => simp [elements, mapItems, Except.map, without]
  | object fs => simp [elements, mapItems, Except.map, without]
  | _ => rfl

@[simp]
theorem withoutCosts_withoutCosts (set : Value) :
    set.withoutCosts.withoutCosts = set.withoutCosts := by
  have hitems : ∀ v : Value, (v.mapItems (without "manaCost")).mapItems (without "manaCost") =
      v.mapItems (without "manaCost") := by
    intro v
    cases v with
    | list xs => simp [mapItems]
    | _ => rfl
  cases set with
  | object fs =>
    simp only [withoutCosts, List.map_map, object.injEq]
    apply List.map_congr_left
    intro f _
    by_cases hf : f.1 = "cards" <;> simp [hf, hitems]
  | _ => rfl

end

end Value

namespace CardData

variable (card : Value)

theorem name_without : name (card.without "manaCost") = name card := by
  simp [name]

theorem faces?_without : faces? (card.without "manaCost") = faces? card := by
  simp [faces?]

theorem cost_without {fields : List String} (h : "manaCost" ∉ fields) :
    cost (card.without "manaCost") fields = cost card fields := by
  induction fields with
  | nil => rfl
  | cons f fs ih =>
    rw [List.mem_cons, not_or] at h
    rw [cost, cost, Value.memberOf_without (Ne.symm h.1), ih h.2]

theorem textField_without {field : String} (h : field ≠ "manaCost") :
    textField (card.without "manaCost") field = textField card field := by
  rw [textField, textField, Value.memberOf_without h]

theorem labels_without {field : String} (h : field ≠ "manaCost") (fallback : List Value) :
    labels (card.without "manaCost") field fallback = labels card field fallback := by
  rw [labels, labels, Value.memberOf_without h]

end CardData

/-! ## Tables without costs -/

/-- The row of a card that gives no cost. -/
def CardRow.withoutCost (r : CardRow) : CardRow := { r with manaCost := "" }

namespace Tables

/-- The tables with no cost of any card. -/
def withoutCosts (t : Tables) : Tables :=
  { t with cards := t.cards.map CardRow.withoutCost, mana := [] }

section

variable {t t' : Tables}

@[simp]
theorem hasCard_withoutCosts (t : Tables) (name : String) :
    t.withoutCosts.hasCard name = t.hasCard name := by
  rw [hasCard, hasCard, withoutCosts, List.any_map]
  rfl

@[simp]
theorem refersToCard_withoutCosts (t : Tables) (name : Option String) :
    t.withoutCosts.refersToCard name = t.refersToCard name := by
  cases name with
  | none => rfl
  | some name => exact hasCard_withoutCosts t name

@[simp]
theorem side_withoutCosts (t : Tables) (s : Side) : t.withoutCosts.side s = t.side s := by
  cases s <;> rfl

theorem setSide_withoutCosts (t : Tables) (s : Side) (rows : List LabelRow) :
    (t.setSide s rows).withoutCosts = t.withoutCosts.setSide s rows := by
  cases s <;> rfl

/-! ### Insertions -/

theorem addLabel_withoutCosts (t : Tables) (s : Side) (card label : Option String) :
    (t.addLabel s card label).map withoutCosts = t.withoutCosts.addLabel s card label := by
  simp only [addLabel, hasCard_withoutCosts, side_withoutCosts]
  exact map_bind_same fun rows _ => congrArg Except.ok (setSide_withoutCosts t s rows.1)

theorem addPower_withoutCosts (t : Tables) (row : PowerRow) :
    (t.addPower row).map withoutCosts = t.withoutCosts.addPower row := by
  simp only [addPower, refersToCard_withoutCosts]
  exact map_bind_same fun _ _ => rfl

theorem addLoyalty_withoutCosts (t : Tables) (row : LoyaltyRow) :
    (t.addLoyalty row).map withoutCosts = t.withoutCosts.addLoyalty row := by
  simp only [addLoyalty, refersToCard_withoutCosts]
  exact map_bind_same fun _ _ => rfl

theorem addExpansion_withoutCosts (t : Tables) (name code : Option String) (size : Int)
    (released : Option String) :
    (t.addExpansion name code size released).map withoutCosts =
      t.withoutCosts.addExpansion name code size released :=
  map_bind_same fun _ _ => rfl

theorem addBlock_withoutCosts (t : Tables) (expansion block : Option String) :
    (t.addBlock expansion block).map withoutCosts = t.withoutCosts.addBlock expansion block :=
  map_bind_same fun _ _ => rfl

/-- What is read of an insertion that also says whether there is a new row. -/
def forgetCosts {α : Type} (p : Tables × α) : Tables × α := (p.1.withoutCosts, p.2)

theorem addPrinting_withoutCosts (t : Tables)
    (card expansion number rarity flavor artist : Option String) :
    (t.addPrinting card expansion number rarity flavor artist).map forgetCosts =
      t.withoutCosts.addPrinting card expansion number rarity flavor artist := by
  simp only [addPrinting, hasCard_withoutCosts]
  exact map_bind_same fun _ _ => rfl

theorem addGroup_withoutCosts (t : Tables) (names : List (Option String))
    (layout : Option String) (total : Int) :
    (t.addGroup names layout total).map withoutCosts =
      t.withoutCosts.addGroup names layout total := by
  unfold addGroup
  split
  · simp only [addPair, hasCard_withoutCosts]
    exact map_bind_same fun _ _ => rfl
  · simp only [addTriple, hasCard_withoutCosts]
    exact map_bind_same fun _ _ => rfl
  · rfl

/-- An insertion into rows that are read in another way, of a row that is read so. -/
theorem insertOrSkip_map {ρ ρ' : Type} {clash : ρ → ρ → Bool} {clash' : ρ' → ρ' → Bool}
    {refers : ρ → Bool} {refers' : ρ' → Bool} {g : ρ → ρ'}
    (hclash : ∀ a b, clash' (g a) (g b) = clash a b) (hrefers : ∀ a, refers' (g a) = refers a)
    (row : Option ρ) (rows : List ρ) :
    (insertOrSkip clash refers row rows).map (fun p => (p.1.map g, p.2)) =
      insertOrSkip clash' refers' (row.map g) (rows.map g) := by
  cases row with
  | none => rfl
  | some r =>
    have htaken : (rows.map g).any (clash' (g r)) = rows.any (clash r) := by
      rw [List.any_map]
      exact congrArg rows.any (funext fun b => hclash r b)
    rw [Option.map_some, insertOrSkip, insertOrSkip, htaken, hrefers]
    split
    · rfl
    · split
      · simp [Except.map]
      · rfl

theorem addCard_withoutCosts (t : Tables) (name text : Option String) (cmc : Int)
    (manaCost : String) :
    (t.addCard name text cmc (some manaCost)).map forgetCosts =
      t.withoutCosts.addCard name text cmc (some "") := by
  have hrow : (insertOrSkip (fun a b => sameKey a.name b.name) (fun _ => true)
      (text.map fun s => CardRow.mk name s cmc manaCost) t.cards).map
        (fun p => (p.1.map CardRow.withoutCost, p.2)) =
      insertOrSkip (fun a b => sameKey a.name b.name) (fun _ => true)
        ((text.map fun s => CardRow.mk name s cmc manaCost).map CardRow.withoutCost)
        (t.cards.map CardRow.withoutCost) := by
    apply insertOrSkip_map
    · intro _ _
      rfl
    · intro _
      rfl
  cases text with
  | none => rfl
  | some s => exact map_bind_eq hrow fun _ _ => rfl

/-! ### Details of a new card -/

theorem addLabels_withoutCosts (t : Tables) (s : Side) (card : Option String)
    (labels : List Value) :
    (t.addLabels s card labels).map withoutCosts = t.withoutCosts.addLabels s card labels := by
  induction labels generalizing t with
  | nil => rfl
  | cons v rest ih =>
    rw [addLabels, addLabels]
    exact map_bind_same fun label _ =>
      map_bind_eq (addLabel_withoutCosts t s card label) fun t _ => ih t

theorem addLabelField_withoutCosts (t : Tables) (s : Side) (name : Option String) (card : Value)
    {field : String} (h : field ≠ "manaCost") (fallback : List Value) :
    (t.addLabelField s name card field fallback).map withoutCosts =
      t.withoutCosts.addLabelField s name (card.without "manaCost") field fallback := by
  rw [addLabelField, addLabelField, CardData.labels_without card h]
  refine map_bind_same fun labels _ => ?_
  rw [map_stored, addLabels_withoutCosts]

theorem addStatistics_withoutCosts (t : Tables) (name : Option String) (card : Value) :
    (t.addStatistics name card).map withoutCosts =
      t.withoutCosts.addStatistics name (card.without "manaCost") := by
  have hpower : "power" ≠ "manaCost" := by decide
  have htoughness : "toughness" ≠ "manaCost" := by decide
  have hloyalty : "loyalty" ≠ "manaCost" := by decide
  rw [addStatistics, addStatistics, Value.memberOf_without hpower,
    Value.memberOf_without htoughness, Value.memberOf_without hloyalty]
  refine map_bind_same fun power _ => map_bind_same fun toughness _ =>
    map_bind_same fun loyalty _ => ?_
  split
  · refine map_bind_same fun _ _ => map_bind_same fun _ _ => map_bind_same fun _ _ =>
      map_bind_same fun _ _ => ?_
    rw [map_stored, addPower_withoutCosts]
  · split
    · refine map_bind_same fun _ _ => map_bind_same fun _ _ => ?_
      rw [map_stored, addLoyalty_withoutCosts]
    · rfl

/-- Amounts that can be stored are stored for a card that is there, and are costs of it. -/
theorem addAmounts_withoutCosts {name : Option String} {counts : Counts}
    (hcard : t.refersToCard name = true) (hcounts : ∀ q ∈ counts, inWord q.2 = true) :
    (t.addAmounts name counts).map withoutCosts = .ok t.withoutCosts := by
  induction counts generalizing t with
  | nil => rfl
  | cons q rest ih =>
    obtain ⟨symbol, n⟩ := q
    rw [List.forall_mem_cons] at hcounts
    have hquantity : storedInteger n = .ok (n : Int) := storedInteger_eq_ok.2 ⟨hcounts.1, rfl⟩
    have hrow : ∃ rows isNew, insertOrSkip (fun a b => a.card == b.card && a.symbol == b.symbol)
        (fun r => t.hasCard r.card) (name.map fun c => ManaRow.mk c symbol n) t.mana =
        .ok (rows, isNew) := by
      cases name with
      | none => exact ⟨_, _, rfl⟩
      | some c =>
        rw [Option.map_some, insertOrSkip]
        split
        · exact ⟨_, _, rfl⟩
        · exact ⟨_, _, if_pos hcard⟩
    obtain ⟨rows, isNew, hrow⟩ := hrow
    have hmana : t.addMana name symbol n = .ok { t with mana := rows } := by
      rw [addMana]
      cases name with
      | none => exact bind_eq_ok.2 ⟨_, hrow, rfl⟩
      | some c => exact bind_eq_ok.2 ⟨_, hrow, rfl⟩
    rw [addAmounts, hquantity, ok_bind, hmana, ok_bind, ih _ hcounts.2]
    · rfl
    · exact hcard

end

end Tables

/-! ## Costs that can be stored -/

/-- A cost whose groups are all counted, with amounts that fit into a word. -/
def IsStorable (cost : String) : Prop :=
  ∃ counts, parseManaCost cost = .ok counts ∧ ∀ q ∈ counts, inWord q.2 = true

/-- A card that gives no cost, or a storable one. -/
def GivesStorableCost (card : Value) : Prop :=
  ∀ v, CardData.textField card "manaCost" = .ok v → ∃ cost, v = .text cost ∧ IsStorable cost

theorem isStorable_empty : IsStorable "" := ⟨[], rfl, List.forall_mem_nil _⟩

theorem textField_manaCost_without {card : Value} (h : card.isObject = true) :
    CardData.textField (card.without "manaCost") "manaCost" = .ok (.text "") := by
  cases card with
  | object fs =>
    rw [CardData.textField, Value.without, Value.memberOf_object, Value.lookup_self_without]
    rfl
  | _ => cases h

theorem textField_of_not_isObject {card : Value} (h : card.isObject = false) (field : String) :
    CardData.textField card field = .error (.noMember card.kind "get") := by
  rw [CardData.textField, Value.memberOf, Value.memberOr_of_not_isObject h]
  rfl

theorem givesStorableCost_without (card : Value) :
    GivesStorableCost (card.without "manaCost") := by
  intro v hv
  cases hobject : card.isObject with
  | true =>
    rw [textField_manaCost_without hobject] at hv
    exact ⟨"", (Except.ok.inj hv).symm, isStorable_empty⟩
  | false =>
    have hsame : (card.without "manaCost").isObject = false := by
      cases card with
      | object fs => cases hobject
      | _ => rfl
    rw [textField_of_not_isObject hsame] at hv
    cases hv

namespace Tables

section

variable {t t' : Tables}

/-! ### Cards -/

/-- A card that has just been added is there to be referred to. -/
theorem refersToCard_of_new {name text manaCost : Option String} {cmc : Int}
    (h : t.addCard name text cmc manaCost = .ok (t', true)) : t'.refersToCard name = true := by
  obtain ⟨⟨rows, isNew⟩, hrows, h⟩ := bind_eq_ok.1 h
  cases h
  rcases insertOrSkip_eq_ok hrows with ⟨hold, -⟩ | ⟨-, r, hrow, -, -, rfl⟩
  · cases hold
  · cases name with
    | none => rfl
    | some name =>
      have hname : r.name = some name := by
        obtain ⟨s, -, hrow⟩ := Option.bind_eq_some_iff.1 hrow
        obtain ⟨cost, -, hrow⟩ := Option.bind_eq_some_iff.1 hrow
        cases hrow
        rfl
      simp [refersToCard, hasCard, hname]

theorem addDetails_withoutCosts {name : Option String} {card : Value} {cost : String}
    (hcard : t.refersToCard name = true)
    (hcost : CardData.textField card "manaCost" = .ok (.text cost)) (hstorable : IsStorable cost) :
    (t.addDetails name card).map withoutCosts =
      t.withoutCosts.addDetails name (card.without "manaCost") := by
  obtain ⟨counts, hparse, hcounts⟩ := hstorable
  have hobject : card.isObject = true := by
    by_contra hno
    rw [textField_of_not_isObject (Bool.eq_false_iff.2 hno)] at hcost
    cases hcost
  rw [addDetails, addDetails, hcost, textField_manaCost_without hobject]
  refine map_bind_eq (addLabelField_withoutCosts t _ _ _ (by decide) _) fun t₁ h₁ => ?_
  refine map_bind_eq (addLabelField_withoutCosts t₁ _ _ _ (by decide) _) fun t₂ h₂ => ?_
  refine map_bind_eq (addLabelField_withoutCosts t₂ _ _ _ (by decide) _) fun t₃ h₃ => ?_
  refine map_bind_eq (addLabelField_withoutCosts t₃ _ _ _ (by decide) _) fun t₄ h₄ => ?_
  refine map_bind_eq (addLabelField_withoutCosts t₄ _ _ _ (by decide) _) fun t₅ h₅ => ?_
  -- the labels bring no card, so the card is still there when its amounts come
  have hlabels : t₅.withoutDetails = t.withoutDetails := by
    rw [addLabelField_withoutDetails h₅, addLabelField_withoutDetails h₄,
      addLabelField_withoutDetails h₃, addLabelField_withoutDetails h₂,
      addLabelField_withoutDetails h₁]
  have hcards : t₅.withoutDetails.cards = t.withoutDetails.cards := congrArg Tables.cards hlabels
  have hthere : t₅.refersToCard name = true := by
    rw [← hcard]
    exact congrArg (fun rows => name.all fun m => rows.any fun c => c.name == some m) hcards
  have hamounts : CardData.amounts (.text cost) = .ok counts := hparse
  have hnone : CardData.amounts (.text "") = .ok [] := rfl
  obtain ⟨t₆, h₆, hsame⟩ := map_eq_ok.1 (addAmounts_withoutCosts hthere hcounts)
  simp only [shaped_ok, stored_ok, ok_bind, hamounts, hnone, addAmounts_nil, h₆]
  rw [addStatistics_withoutCosts, hsame]

theorem addCardRow_withoutCosts (t : Tables) (name : Value) {card : Value}
    (hcost : GivesStorableCost card) :
    (t.addCardRow name card).map withoutCosts =
      t.withoutCosts.addCardRow name (card.without "manaCost") := by
  cases hobject : card.isObject with
  | false =>
    have hsame : card.without "manaCost" = card := by
      cases card with
      | object fs => cases hobject
      | _ => rfl
    rw [hsame, addCardRow, addCardRow, textField_of_not_isObject hobject]
    rfl
  | true =>
    obtain ⟨v, hv⟩ : ∃ v, CardData.textField card "manaCost" = .ok v := by
      obtain ⟨w, hw⟩ := Value.memberOf_of_isObject hobject "manaCost"
      exact ⟨w.orElse (.text ""), bind_eq_ok.2 ⟨w, hw, rfl⟩⟩
    obtain ⟨cost, rfl, hstorable⟩ := hcost v hv
    have htext : "text" ≠ "manaCost" := by decide
    have hfields : "manaCost" ∉ CardData.costFields := by decide
    rw [addCardRow, addCardRow, CardData.textField_without card htext,
      CardData.cost_without card hfields, hv, textField_manaCost_without hobject]
    refine map_bind_same fun text _ => map_bind_same fun cmc _ => ?_
    rw [shaped_ok, ok_bind, shaped_ok, ok_bind]
    refine map_bind_same fun storedName _ => map_bind_same fun storedText _ =>
      map_bind_same fun storedCmc _ => ?_
    rw [storedText_text, storedText_text, stored_ok, ok_bind, stored_ok, ok_bind]
    have hrow : (stored (t.addCard storedName storedText storedCmc (some cost))).map forgetCosts =
        stored (t.withoutCosts.addCard storedName storedText storedCmc (some "")) := by
      rw [map_stored, addCard_withoutCosts]
    refine map_bind_eq hrow fun p hp => ?_
    obtain ⟨mid, isNew⟩ := p
    cases isNew with
    | false => rfl
    | true =>
      have hthere := refersToCard_of_new (stored_eq_ok.1 hp)
      exact addDetails_withoutCosts hthere hv hstorable

theorem addPrintingRow_withoutCosts (t : Tables) (expansion name card : Value) :
    (t.addPrintingRow expansion name card).map forgetCosts =
      t.withoutCosts.addPrintingRow expansion name (card.without "manaCost") := by
  have hnumber : "number" ≠ "manaCost" := by decide
  have hrarity : "rarity" ≠ "manaCost" := by decide
  have hflavor : "flavorText" ≠ "manaCost" := by decide
  have hartist : "artist" ≠ "manaCost" := by decide
  rw [addPrintingRow, addPrintingRow, Value.memberOf_without hnumber,
    Value.memberOf_without hrarity, CardData.textField_without card hflavor,
    CardData.textField_without card hartist]
  refine map_bind_same fun number _ => map_bind_same fun rarity _ => map_refuse_same fun _ =>
    map_bind_same fun flavor _ => map_bind_same fun artist _ => map_bind_same fun c _ =>
      map_bind_same fun e _ => map_bind_same fun r _ => map_bind_same fun f _ =>
        map_bind_same fun a _ => ?_
  rw [map_stored, addPrinting_withoutCosts]

/-- A card of a storable cost is taken in as it is without its cost. -/
theorem addCardData_withoutCosts (t : Tables) (expansion : Value) {card : Value}
    (hcost : GivesStorableCost card) :
    (t.addCardData expansion card).map forgetCosts =
      t.withoutCosts.addCardData expansion (card.without "manaCost") := by
  rw [addCardData, addCardData, CardData.name_without]
  exact map_bind_same fun name _ => map_bind_eq (addCardRow_withoutCosts t name hcost)
    fun mid _ => addPrintingRow_withoutCosts mid expansion name card

/-! ### Groups of faces -/

theorem faceRows_withoutCosts (t : Tables) (names : List (Option String)) :
    t.withoutCosts.faceRows names = (t.faceRows names).map CardRow.withoutCost := by
  rw [faceRows, faceRows, withoutCosts, List.filter_map]
  rfl

theorem totalCmc_withoutCost (rows : List CardRow) :
    totalCmc (rows.map CardRow.withoutCost) = totalCmc rows := by
  rw [totalCmc, List.foldr_map]
  rfl

theorem insertByName_withoutCost (row : CardRow) (rows : List CardRow) :
    insertByName row.withoutCost (rows.map CardRow.withoutCost) =
      (insertByName row rows).map CardRow.withoutCost := by
  induction rows with
  | nil => rfl
  | cons c cs ih =>
    have hname (r : CardRow) : r.withoutCost.name = r.name := rfl
    simp only [insertByName, List.map_cons, hname, ih]
    split <;> rfl

theorem inNameOrder_withoutCost (rows : List CardRow) :
    inNameOrder (rows.map CardRow.withoutCost) =
      (inNameOrder rows).map CardRow.withoutCost := by
  induction rows with
  | nil => rfl
  | cons c cs ih =>
    rw [inNameOrder, inNameOrder] at ih
    rw [inNameOrder, inNameOrder, List.map_cons, List.foldr_cons, List.foldr_cons, ih,
      insertByName_withoutCost]

theorem sumsFit_withoutCost (total : Int) (rows : List CardRow) :
    sumsFit total (rows.map CardRow.withoutCost) = sumsFit total rows := by
  induction rows generalizing total with
  | nil => rfl
  | cons c cs ih => exact congrArg (inWord (total + c.cmc) && ·) (ih _)

theorem addFaces_withoutCosts (t : Tables) (card : Value) (names : List Value) :
    (t.addFaces card names).map withoutCosts =
      t.withoutCosts.addFaces (card.without "manaCost") names := by
  have hlayout : "layout" ≠ "manaCost" := by decide
  rw [addFaces, addFaces, Value.memberOf_without hlayout, CardData.name_without]
  refine map_bind_same fun layout _ => map_bind_same fun name _ => map_refuse_same fun _ =>
    map_refuse_same fun _ => map_bind_same fun faces _ => ?_
  simp only [faceRows_withoutCosts, totalCmc_withoutCost, inNameOrder_withoutCost,
    sumsFit_withoutCost, List.length_map]
  refine map_refuse_same fun _ => ?_
  split
  · rfl
  · refine map_bind_same fun l _ => ?_
    rw [map_stored, addGroup_withoutCosts]

/-- Some cards with their faces, without their costs. -/
def facesWithoutCosts (groups : List (Value × List Value)) : List (Value × List Value) :=
  groups.map fun p => (p.1.without "manaCost", p.2)

theorem addAllFaces_withoutCosts (t : Tables) (groups : List (Value × List Value)) :
    (t.addAllFaces groups).map withoutCosts =
      t.withoutCosts.addAllFaces (facesWithoutCosts groups) := by
  induction groups generalizing t with
  | nil => rfl
  | cons group rest ih =>
    obtain ⟨card, names⟩ := group
    exact map_bind_eq (addFaces_withoutCosts t card names) fun mid _ => ih mid

/-! ### Sets -/

/-- What taking in some cards comes to, read without costs. -/
def Intake.withoutCosts (i : Intake) : Intake :=
  ⟨i.tables.withoutCosts, i.added, facesWithoutCosts i.faces⟩

theorem addCards_withoutCosts (t : Tables) (expansion : Value) {cards : List Value}
    (hcosts : ∀ card ∈ cards, GivesStorableCost card) :
    (t.addCards expansion cards).map Intake.withoutCosts =
      t.withoutCosts.addCards expansion (cards.map (Value.without "manaCost")) := by
  -- from any tables, as each card meets what those before it have left
  induction cards generalizing t with
  | nil => rfl
  | cons card rest ih =>
    rw [List.forall_mem_cons] at hcosts
    rw [List.map_cons, addCards, addCards, CardData.faces?_without]
    refine map_bind_eq (addCardData_withoutCosts t expansion hcosts.1) fun p _ => ?_
    refine map_bind_same fun faces _ => map_bind_eq (ih p.1 hcosts.2) fun later _ => ?_
    cases faces with
    | none => rfl
    | some names => rfl

theorem addSetRow_withoutCosts (t : Tables) (name set : Value) :
    (t.addSetRow name set).map withoutCosts =
      t.withoutCosts.addSetRow name set.withoutCosts := by
  have hsize : claimedSize set.withoutCosts = claimedSize set := by
    rw [claimedSize, claimedSize, Value.memberOf_withoutCosts (by decide),
      Value.memberOf_withoutCosts (by decide)]
  rw [addSetRow, addSetRow, Value.item_withoutCosts (by decide),
    Value.item_withoutCosts (by decide), Value.memberOf_withoutCosts (by decide), hsize]
  refine map_bind_same fun code _ => map_bind_same fun code _ => map_bind_same fun size _ =>
    map_bind_same fun released _ => map_bind_same fun name _ => map_bind_same fun size _ =>
      map_bind_same fun released _ => ?_
  have hrow : (stored (t.addExpansion name (some (Text.upper code)) size released)).map
      withoutCosts =
      stored (t.withoutCosts.addExpansion name (some (Text.upper code)) size released) := by
    rw [map_stored, addExpansion_withoutCosts]
  refine map_bind_eq hrow fun mid _ => map_bind_same fun block _ => ?_
  split
  · rfl
  · refine map_bind_same fun block _ => ?_
    rw [map_stored, addBlock_withoutCosts]

/-- The cards listed in a set give storable costs if the items in its field do: what else is
listed are texts. -/
theorem givesStorableCost_of_elements {set v : Value} {cards : List Value}
    (hcosts : ∀ card ∈ set.itemsAt "cards", GivesStorableCost card)
    (hv : set.item "cards" = .ok v) (hcards : v.elements = .ok cards) :
    ∀ card ∈ cards, GivesStorableCost card := by
  rw [Value.itemsAt_of_item hv] at hcosts
  rcases Value.elements_cases hcards with rfl | ⟨-, htexts⟩
  · exact hcosts
  · intro card hcard v hv
    obtain ⟨s, rfl⟩ := htexts card hcard
    cases hv

/-- A set of storable costs is taken in as it is without its costs. -/
theorem addSet_withoutCosts (t : Tables) (name : Value) {set : Value}
    (hcosts : ∀ card ∈ set.itemsAt "cards", GivesStorableCost card) :
    (t.addSet name set).map forgetCosts = t.withoutCosts.addSet name set.withoutCosts := by
  rw [addSet, addSet, ← Value.item_cards_withoutCosts]
  refine map_bind_eq (addSetRow_withoutCosts t name set) fun mid _ => ?_
  cases hv : set.item "cards" with
  | error e => rfl
  | ok v =>
    have hlisted : shaped (v.mapItems (Value.without "manaCost")).elements =
        (shaped v.elements).map (List.map (Value.without "manaCost")) := by
      rw [← Value.elements_mapItems]
      cases v.elements with
      | error e => rfl
      | ok cards => rfl
    have hmapped : Except.map (Value.mapItems (Value.without "manaCost")) (.ok v) =
        (.ok (v.mapItems (Value.without "manaCost")) : Except ShapeFault Value) := rfl
    rw [hmapped, shaped_ok, shaped_ok, ok_bind, ok_bind]
    refine map_bind_eq hlisted.symm fun cards hcards => ?_
    have hall := givesStorableCost_of_elements hcosts hv (shaped_eq_ok.1 hcards)
    refine map_bind_eq (addCards_withoutCosts mid name hall) fun intake _ => ?_
    exact map_bind_eq (addAllFaces_withoutCosts intake.tables intake.faces) fun _ _ => rfl

/-! ### Costs of the cards that are stored -/

theorem addAmounts_inWord {name : Option String} {counts : Counts}
    (h : t.addAmounts name counts = .ok t') : ∀ q ∈ counts, inWord q.2 = true := by
  induction counts generalizing t with
  | nil => exact List.forall_mem_nil _
  | cons q rest ih =>
    obtain ⟨symbol, n⟩ := q
    rw [addAmounts] at h
    obtain ⟨quantity, hquantity, h⟩ := bind_eq_ok.1 h
    obtain ⟨mid, -, h⟩ := bind_eq_ok.1 h
    exact List.forall_mem_cons.2 ⟨(storedInteger_eq_ok.1 hquantity).1, ih h⟩

/-- The details of a card are stored only with its cost. -/
theorem addDetails_cost {name : Option String} {card v : Value}
    (hv : CardData.textField card "manaCost" = .ok v) (h : t.addDetails name card = .ok t') :
    ∃ cost, v = .text cost ∧ IsStorable cost := by
  rw [addDetails, hv] at h
  obtain ⟨t₁, -, h⟩ := bind_eq_ok.1 h
  obtain ⟨t₂, -, h⟩ := bind_eq_ok.1 h
  obtain ⟨t₃, -, h⟩ := bind_eq_ok.1 h
  obtain ⟨t₄, -, h⟩ := bind_eq_ok.1 h
  obtain ⟨t₅, -, h⟩ := bind_eq_ok.1 h
  obtain ⟨_, hread, h⟩ := bind_eq_ok.1 h
  obtain rfl := Except.ok.inj hread
  obtain ⟨counts, hcounts, h⟩ := bind_eq_ok.1 h
  obtain ⟨t₆, hamounts, -⟩ := bind_eq_ok.1 h
  cases v with
  | text cost =>
    exact ⟨cost, rfl, counts, shaped_eq_ok.1 hcounts, addAmounts_inWord (stored_eq_ok.1 hamounts)⟩
  | _ => cases hcounts

theorem addCardRow_costs {name card : Value} (h : t.addCardRow name card = .ok t') :
    ∀ r ∈ t'.cards, r ∈ t.cards ∨ IsStorable r.manaCost := by
  obtain ⟨_, v, _, _, _, manaCost, mid, isNew, -, hv, -, -, hstored, hrow, hdetails⟩ :=
    addCardRow_inserts h
  obtain ⟨⟨rows, new⟩, hrows, hrow⟩ := bind_eq_ok.1 hrow
  cases hrow
  rcases insertOrSkip_eq_ok hrows with ⟨rfl, rfl⟩ | ⟨rfl, row, hcomplete, -, -, rfl⟩
  · -- a card that is known keeps its row, and its details are not read
    rcases hdetails with ⟨hnew, -⟩ | ⟨-, rfl⟩
    · cases hnew
    · exact fun r hr => .inl hr
  · rcases hdetails with ⟨-, hdetails⟩ | ⟨hknown, -⟩
    · obtain ⟨cost, rfl, hstorable⟩ := addDetails_cost hv hdetails
      obtain ⟨text, -, hcomplete⟩ := Option.bind_eq_some_iff.1 hcomplete
      obtain ⟨kept, hkept, hcomplete⟩ := Option.bind_eq_some_iff.1 hcomplete
      obtain rfl := Except.ok.inj hstored
      obtain rfl := Option.some.inj hkept
      obtain rfl := Option.some.inj hcomplete
      intro r hr
      rw [addDetails_cards hdetails, List.mem_append, List.mem_singleton] at hr
      rcases hr with hr | rfl
      · exact .inl hr
      · exact .inr hstorable
    · cases hknown

theorem addCards_costs {expansion : Value} {cards : List Value} {i : Intake}
    (h : t.addCards expansion cards = .ok i) :
    ∀ r ∈ i.tables.cards, r ∈ t.cards ∨ IsStorable r.manaCost := by
  induction cards generalizing t i with
  | nil =>
    cases h
    exact fun r hr => .inl hr
  | cons card rest ih =>
    obtain ⟨mid, isNew, faces, later, hcard, -, hlater, htables, -⟩ := addCards_steps h
    obtain ⟨name, row, -, hrow, hprinting⟩ := addCardData_steps hcard
    have hsame : mid.cards = row.cards := by
      obtain ⟨_, _, _, _, _, _, _, _, _, -, -, -, -, -, -, hprinting⟩ :=
        addPrintingRow_inserts hprinting
      obtain ⟨⟨printings, new⟩, -, hprinting⟩ := bind_eq_ok.1 hprinting
      cases hprinting
      rfl
    intro r hr
    rw [htables] at hr
    rcases ih hlater r hr with hmid | hstorable
    · exact addCardRow_costs hrow r (hsame ▸ hmid)
    · exact .inr hstorable

/-- The costs of the cards that a set adds are storable. -/
theorem addSet_costs {name set : Value} {n : Nat} (h : t.addSet name set = .ok (t', n)) :
    ∀ r ∈ t'.cards, r ∈ t.cards ∨ IsStorable r.manaCost := by
  obtain ⟨mid, intake, hrow, hcards, hfaces⟩ := addSet_steps h
  intro r hr
  rw [cards_of_ofCards (addAllFaces_ofCards hfaces)] at hr
  rcases addCards_costs hcards r hr with hmid | hstorable
  · rw [cards_of_ofCards (addSetRow_ofCards hrow)] at hmid
    exact .inl hmid
  · exact .inr hstorable

end

end Tables

/-! ## Imports -/

namespace Database

theorem setName_withoutCosts (set : Value) : setName set.withoutCosts = setName set := by
  have hfields : ∀ fields, checkFields set.withoutCosts fields = checkFields set fields := by
    intro fields
    induction fields with
    | nil => rfl
    | cons f fs ih => rw [checkFields, checkFields, Value.holds_withoutCosts, ih]
  rw [setName, setName, hfields, Value.item_withoutCosts (by decide)]

/-- Work that comes to the same when read without costs has the same outcome in a
transaction. -/
theorem transact_withoutCosts {α : Type} (db : Database)
    {work work' : Tables → Except Failure (Tables × α)}
    (h : (work db.tables).map Tables.forgetCosts = (work' db.tables).map Tables.forgetCosts) :
    (db.transact work).2 = (db.transact work').2 := by
  unfold transact
  split
  · rfl
  · cases hwork : work db.tables with
    | error e =>
      rw [hwork] at h
      cases hwork' : work' db.tables with
      | error e' =>
        rw [hwork'] at h
        cases h
        rfl
      | ok b =>
        rw [hwork'] at h
        cases h
    | ok a =>
      rw [hwork] at h
      cases hwork' : work' db.tables with
      | error e' =>
        rw [hwork'] at h
        cases h
      | ok b =>
        rw [hwork'] at h
        have hsame : Tables.forgetCosts a = Tables.forgetCosts b := Except.ok.inj h
        have hsecond : (Tables.forgetCosts a).2 = (Tables.forgetCosts b).2 := by rw [hsame]
        exact congrArg Except.ok hsecond

/-- Storable costs make no difference to the outcome of an import. -/
theorem insertSet_withoutCosts (db : Database) {set : Value}
    (hcosts : ∀ card ∈ set.itemsAt "cards", GivesStorableCost card) :
    (db.insertSet set).2 = (db.insertSet set.withoutCosts).2 := by
  have hnone : ∀ card ∈ set.withoutCosts.itemsAt "cards", GivesStorableCost card := by
    rw [Value.itemsAt_withoutCosts]
    intro card hcard
    obtain ⟨card, -, rfl⟩ := List.mem_map.1 hcard
    exact givesStorableCost_without card
  rw [insertSet, insertSet, setName_withoutCosts]
  cases setName set with
  | error e => rfl
  | ok name =>
    apply transact_withoutCosts
    rw [Tables.addSet_withoutCosts db.tables name hcosts,
      Tables.addSet_withoutCosts db.tables name hnone, Value.withoutCosts_withoutCosts]

end Database

/-- What a cost counts, and when it stops an import. A text has groups in one way. Its cost is
counted exactly if no group of digits has one without a value, and then to what the groups
come to. An import in which every card gives no cost or a storable one has the outcome that it
has without any costs, and no import gets through with a new card whose cost is not
storable. -/
theorem costs_of_imports (cost : String) (db : Database) (set : Value) :
    (∃ gs, (∀ gs', Grouped cost.toList gs' ↔ gs' = gs) ∧
      ((∃ counts, parseManaCost cost = .ok counts) ↔ ∀ g ∈ gs, IsCountable g) ∧
      ∀ counts, parseManaCost cost = .ok counts → Tallies gs counts) ∧
    ((∀ card ∈ set.itemsAt "cards", GivesStorableCost card) →
      (db.insertSet set).2 = (db.insertSet set.withoutCosts).2) ∧
    ∀ n, (db.insertSet set).2 = .ok n →
      ∀ r ∈ (db.insertSet set).1.tables.cards, r ∈ db.tables.cards ∨ IsStorable r.manaCost := by
  refine ⟨⟨groups cost.toList, fun gs' => ?_, ?_, fun counts => ?_⟩,
    db.insertSet_withoutCosts, fun n h => ?_⟩
  · rw [grouped_iff, eq_comm]
  · exact exists_parseManaCost (grouped_iff.2 rfl)
  · exact tallies_of_parseManaCost (grouped_iff.2 rfl)
  · obtain ⟨name, -, hadded⟩ := Database.insertSet_ok h
    exact Tables.addSet_costs hadded

/-- A set with one card of the given cost. -/
def pricedSet (cost : String) : Value :=
  .object [("name", .text "Alpha"), ("code", .text "LEA"), ("releaseDate", .text "1993-08-05"),
    ("cards", .list [.object [("name", .text "Air Elemental"), ("manaCost", .text cost),
      ("number", .text "46"), ("rarity", .text "uncommon"),
      ("types", .list [.text "Creature"])]])]

/-- An amount with a leading zero and one of zero, an empty group, an opening brace within a
group and one that is never closed. -/
theorem pricedSet_taken :
    let cost := "\x7b02\x7d\x7b0\x7d\x7b\x7d\x7b\x7bU\x7d\x7b3\x7d\x7bU"
    (∃ counts, parseManaCost cost = .ok counts ∧ counts.amount genericMana = 5 ∧
      counts.map Prod.fst = [genericMana, "\x7b\x7d", "\x7b\x7bU\x7d"]) ∧
      (Database.empty.insertSet (pricedSet cost)).2 =
        (Database.empty.insertSet (pricedSet cost).withoutCosts).2 ∧
      (Database.empty.insertSet (pricedSet cost)).2 = .ok 1 := by
  intro cost
  have hcount : parseManaCost cost =
      .ok [(genericMana, 5), ("\x7b\x7d", 1), ("\x7b\x7bU\x7d", 1)] := by decide +kernel
  have hcosts : ∀ card ∈ (pricedSet cost).itemsAt "cards", GivesStorableCost card := by
    intro card hcard
    obtain rfl := List.mem_singleton.1 hcard
    intro v hv
    obtain rfl := Except.ok.inj hv
    exact ⟨cost, rfl, _, hcount, by decide⟩
  obtain ⟨-, hsame, -⟩ := costs_of_imports cost Database.empty (pricedSet cost)
  exact ⟨⟨_, hcount, by decide⟩, hsame hcosts, by decide +kernel⟩

/-- A digit without a value lets the count of a cost fail, and an amount beyond a word its
storage. Both refuse a set that would be taken in without its cost. -/
theorem pricedSet_refused :
    (¬∃ counts, parseManaCost "\x7b²\x7d" = .ok counts) ∧
      (Database.empty.insertSet (pricedSet "\x7b²\x7d")).2 =
        .error (.shape (.notInteger "'²'")) ∧
      (∃ counts, parseManaCost "\x7b9223372036854775808\x7d" = .ok counts) ∧
      (Database.empty.insertSet (pricedSet "\x7b9223372036854775808\x7d")).2 =
        .error (.storage .outsideWord) ∧
      (Database.empty.insertSet (pricedSet "\x7b²\x7d").withoutCosts).2 = .ok 1 := by
  refine ⟨?_, by decide +kernel, ⟨_, rfl⟩, by decide +kernel, by decide +kernel⟩
  rintro ⟨counts, h⟩
  cases h

end CardArchive
