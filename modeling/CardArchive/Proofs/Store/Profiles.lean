import CardArchive.Proofs.Card.Objects
import CardArchive.Proofs.Distinct
import CardArchive.Proofs.Store.Reachable
import CardArchive.Store.Details

/-!
# What the tables say of each card

The rows of one card are spread over nine tables. Seen from the cards, each insertion
changes what the tables say of a single name, and nothing of any other: the profiles of
the cards are a function of the name that is updated at one point.

## What this module delivers

* `Profile` and `Tables.profile`: all that is stored of a name beside its printings.
* `Touches`: a change of one profile.
* `addDetails_touches`: the details of a new card make its profile the one that its object
  describes.
* `addCardRow_plain`, `addCardRow_cases`, `addPrintingRow_cases`: what a card object changes.
* `withoutDetails`, `ofCards`: the rows that the details of a card, and the rest of a set,
  leave alone.
-/

set_option autoImplicit false

namespace CardArchive

/-- All that is stored of a card beside its printings. -/
structure Profile where
  card : Option CardRow
  labels : Side → List String
  mana : List (String × Int)
  power : Option PowerRow
  loyalty : Option LoyaltyRow

namespace Profile

/-- Nothing is stored. -/
def unknown : Profile := ⟨none, fun _ => [], [], none, none⟩

/-- The row of a card without any details. -/
def bare (row : CardRow) : Profile := ⟨some row, fun _ => [], [], none, none⟩

/-- The profile with other labels in one table. -/
def withLabels (p : Profile) (s : Side) (ls : List String) : Profile :=
  { p with labels := Function.update p.labels s ls }

end Profile

/-- The profile that a card object describes, with the number and the amounts of mana that
its cost comes to. -/
def CardObject.profile (c : Value) (cmc : Int) (counts : Counts) : Profile :=
  { card := some ⟨some (name c), c.textAt "text", cmc, c.textAt "manaCost"⟩
    labels := fun s => (labels c s).eraseDups
    mana := counts.map fun q => (q.1, (q.2 : Int))
    power := power? c
    loyalty := loyalty? c }

namespace Tables

/-- What the tables say of a name. -/
def profile (t : Tables) (name : String) : Profile :=
  { card := t.cards.find? fun c => c.name == some name
    labels := fun s => ((t.side s).filter fun r => r.card == name).map LabelRow.label
    mana := (t.mana.filter fun r => r.card == name).map fun r => (r.symbol, r.quantity)
    power := t.powers.find? fun r => r.card == some name
    loyalty := t.loyalties.find? fun r => r.card == some name }

/-- All that is known of a card, by its profile. -/
theorem details?_eq (t : Tables) (name : String) :
    t.details? name = (t.profile name).card.map fun row =>
      { row
        mana := Text.sortedBy Prod.fst (t.profile name).mana
        colors := Text.sorted ((t.profile name).labels .color)
        colorIdentity := Text.sorted ((t.profile name).labels .colorIdentity)
        supertypes := Text.sorted ((t.profile name).labels .supertype)
        types := Text.sorted ((t.profile name).labels .type)
        subtypes := Text.sorted ((t.profile name).labels .subtype)
        power := (t.profile name).power
        loyalty := (t.profile name).loyalty
        printings := t.printingsOf name
        groups := t.faceGroups name } := rfl

/-! ## One profile changes -/

/-- The tables say something else of one name, and the same of all others and of all
printings. -/
structure Touches (name : String) (p : Profile) (t t' : Tables) : Prop where
  profile : t'.profile = Function.update t.profile name p
  printings : t'.printings = t.printings

theorem Touches.self {name : String} {p : Profile} {t t' : Tables} (h : Touches name p t t') :
    t'.profile name = p := by
  rw [h.profile, Function.update_self]

theorem Touches.trans {name : String} {p p' : Profile} {t t' t'' : Tables}
    (h : Touches name p t t') (h' : Touches name p' t' t'') : Touches name p' t t'' :=
  ⟨by rw [h'.profile, h.profile, Function.update_idem], h'.printings.trans h.printings⟩

theorem Touches.refl {name : String} {t : Tables} : Touches name (t.profile name) t t :=
  ⟨(Function.update_eq_self name t.profile).symm, rfl⟩

/-- Profiles that agree at one name with a profile, and elsewhere with each other. -/
theorem Touches.of_forall {name : String} {p : Profile} {t t' : Tables}
    (hself : t'.profile name = p) (hother : ∀ m, m ≠ name → t'.profile m = t.profile m)
    (hprintings : t'.printings = t.printings) : Touches name p t t' := by
  refine ⟨funext fun m => ?_, hprintings⟩
  by_cases hm : m = name
  · subst hm
    rw [hself, Function.update_self]
  · rw [hother m hm, Function.update_of_ne hm]

section Insertions

variable {t t' : Tables} {name : String}

/-- The rows of a name after one more row of a name. -/
theorem filter_append_of_key {ρ : Type} (key : ρ → String) (rows : List ρ) (r : ρ) (m : String) :
    (rows ++ [r]).filter (fun x => key x == m) =
      rows.filter (fun x => key x == m) ++ if key r = m then [r] else [] := by
  rw [List.filter_append]
  by_cases h : key r = m <;> simp [h]

/-- The first row of a name after one more row of a name. -/
theorem find?_append_of_key {ρ : Type} (key : ρ → Option String) (rows : List ρ) (r : ρ)
    (m : String) :
    (rows ++ [r]).find? (fun x => key x == some m) =
      (rows.find? fun x => key x == some m).or (if key r = some m then some r else none) := by
  rw [List.find?_append]
  by_cases h : key r = some m <;> simp [h]

/-- A row that is complete is added unless its key is taken. -/
theorem insertOrSkip_some {ρ : Type} {clash : ρ → ρ → Bool} {refers : ρ → Bool} {r : ρ}
    {rows result : List ρ} {isNew : Bool}
    (h : insertOrSkip clash refers (some r) rows = .ok (result, isNew)) :
    (isNew = false ∧ result = rows ∧ rows.any (clash r) = true) ∨
      (isNew = true ∧ result = rows ++ [r] ∧ rows.any (clash r) = false) := by
  by_cases htaken : rows.any (clash r) = true
  · rw [insertOrSkip, if_pos htaken] at h
    cases h
    exact .inl ⟨rfl, rfl, htaken⟩
  · rw [insertOrSkip, if_neg htaken] at h
    split at h
    · cases h
      exact .inr ⟨rfl, rfl, Bool.eq_false_iff.2 htaken⟩
    · cases h

/-- A row for a name that has none is added, and is then the one of that name. -/
theorem find?_of_inserted {ρ : Type} (key : ρ → Option String) {refers : ρ → Bool} {r : ρ}
    {rows result : List ρ} {isNew : Bool} (hkey : key r = some name)
    (hnone : (rows.find? fun x => key x == some name) = none)
    (h : insertOrSkip (fun a b => sameKey (key a) (key b)) refers (some r) rows =
      .ok (result, isNew)) :
    (result.find? fun x => key x == some name) = some r ∧
      ∀ m, m ≠ name → (result.find? fun x => key x == some m) =
        rows.find? fun x => key x == some m := by
  rcases insertOrSkip_some h with ⟨rfl, rfl, htaken⟩ | ⟨rfl, rfl, hnew⟩
  · -- a row of that name would have been found
    obtain ⟨x, hx, hclash⟩ := List.any_eq_true.1 htaken
    simp only [sameKey, hkey, Bool.and_eq_true, beq_iff_eq] at hclash
    exact absurd (by simp [hclash.2.symm]) (List.find?_eq_none.1 hnone x hx)
  · refine ⟨?_, fun m hm => ?_⟩
    · rw [find?_append_of_key key, hnone, if_pos hkey]
      rfl
    · have hother : key r ≠ some m := by simpa [hkey] using Ne.symm hm
      rw [find?_append_of_key key, if_neg hother, Option.or_none]

/-- A known card keeps its row, and a new one gets it, if its row can be completed. -/
theorem addCard_cases {text : Option String} {manaCost : String} {cmc : Int} {isNew : Bool}
    (h : t.addCard (some name) text cmc (some manaCost) = .ok (t', isNew)) :
    (isNew = false ∧ (text = none ∨ (t.profile name).card ≠ none) ∧ t' = t) ∨
      (isNew = true ∧ (t.profile name).card = none ∧
        ∃ s, text = some s ∧ t'.cards = t.cards ++ [⟨some name, s, cmc, manaCost⟩] ∧
          Touches name
            { t.profile name with card := some ⟨some name, s, cmc, manaCost⟩ } t t') := by
  unfold addCard at h
  obtain ⟨⟨rows, new⟩, hrows, h⟩ := bind_eq_ok.1 h
  cases h
  cases text with
  | none =>
    cases hrows
    exact .inl ⟨rfl, .inl rfl, rfl⟩
  | some s =>
    have hclash : t.cards.any (fun c => sameKey (some name) c.name) = false ↔
        (t.profile name).card = none := by
      simp only [profile, List.find?_eq_none, List.any_eq_false, sameKey, Option.isSome_some,
        Bool.true_and, beq_iff_eq]
      exact forall₂_congr fun c _ => not_congr eq_comm
    rcases insertOrSkip_some hrows with ⟨rfl, rfl, htaken⟩ | ⟨rfl, rfl, hnew⟩
    · refine .inl ⟨rfl, .inr ?_, rfl⟩
      rw [Ne, ← hclash, Bool.not_eq_false]
      exact htaken
    · have hnone : (t.cards.find? fun c => c.name == some name) = none := hclash.1 hnew
      obtain ⟨hself, hother⟩ := find?_of_inserted CardRow.name rfl hnone hrows
      refine .inr ⟨rfl, hnone, s, rfl, rfl, Touches.of_forall ?_ (fun m hm => ?_) rfl⟩
      · exact congrArg (fun card => ({ t.profile name with card } : Profile)) hself
      · exact congrArg (fun card => ({ t.profile m with card } : Profile)) (hother m hm)

/-- Other rows in a table of labels are other labels in it. -/
theorem profile_setSide (t : Tables) (s : Side) (rows : List LabelRow) (m : String) :
    (t.setSide s rows).profile m =
      (t.profile m).withLabels s ((rows.filter fun r => r.card == m).map LabelRow.label) := by
  have hlabels : ((t.setSide s rows).profile m).labels =
      Function.update (t.profile m).labels s
        ((rows.filter fun r => r.card == m).map LabelRow.label) := by
    funext other
    by_cases h : other = s
    · subst h
      simp [profile]
    · simp [profile, side_setSide_ne h, Function.update_of_ne h]
  rw [Profile.withLabels, ← hlabels]
  cases s <;> rfl

theorem withLabels_self (p : Profile) (s : Side) : p.withLabels s (p.labels s) = p := by
  rw [Profile.withLabels, Function.update_eq_self]

/-- The labels with one more, unless they have it. -/
def addTo (ls : List String) (l : String) : List String := if l ∈ ls then ls else ls ++ [l]

theorem addLabel_touches {s : Side} {label : String}
    (h : t.addLabel s (some name) (some label) = .ok t') :
    Touches name
      ((t.profile name).withLabels s (addTo ((t.profile name).labels s) label)) t t' := by
  unfold addLabel at h
  obtain ⟨⟨rows, new⟩, hrows, h⟩ := bind_eq_ok.1 h
  cases h
  have hlisted : label ∈ (t.profile name).labels s ↔
      (t.side s).any (fun b => (⟨name, label⟩ : LabelRow) == b) = true := by
    simp only [profile, List.mem_map, List.mem_filter, beq_iff_eq, List.any_eq_true]
    constructor
    · rintro ⟨r, ⟨hr, rfl⟩, rfl⟩
      exact ⟨r, hr, rfl⟩
    · rintro ⟨r, hr, rfl⟩
      exact ⟨_, ⟨hr, rfl⟩, rfl⟩
  rcases insertOrSkip_some hrows with ⟨rfl, rfl, htaken⟩ | ⟨rfl, rfl, hnew⟩
  · -- a label that the card has is skipped, and nothing changes
    rw [addTo, if_pos (hlisted.2 htaken), withLabels_self]
    have hsame : t.setSide s (t.side s) = t := by cases s <;> rfl
    rw [hsame]
    exact Touches.refl
  · have hfresh : label ∉ (t.profile name).labels s := by
      rw [hlisted, hnew]
      exact Bool.false_ne_true
    refine Touches.of_forall ?_ ?_ (by cases s <;> rfl)
    · rw [profile_setSide, filter_append_of_key LabelRow.card, if_pos rfl, addTo, if_neg hfresh,
        List.map_append]
      rfl
    · intro m hm
      rw [profile_setSide, filter_append_of_key LabelRow.card, if_neg (Ne.symm hm),
        List.append_nil]
      exact withLabels_self (t.profile m) s

theorem addMana_touches {symbol : String} {quantity : Int}
    (hfresh : symbol ∉ (t.profile name).mana.map Prod.fst)
    (h : t.addMana (some name) symbol quantity = .ok t') :
    Touches name { t.profile name with mana := (t.profile name).mana ++ [(symbol, quantity)] }
      t t' := by
  unfold addMana at h
  obtain ⟨⟨rows, new⟩, hrows, h⟩ := bind_eq_ok.1 h
  cases h
  rcases insertOrSkip_some hrows with ⟨rfl, rfl, htaken⟩ | ⟨rfl, rfl, hnew⟩
  · -- a row of that symbol would be listed
    obtain ⟨r, hr, hkey⟩ := List.any_eq_true.1 htaken
    simp only [Bool.and_eq_true, beq_iff_eq] at hkey
    refine absurd ?_ hfresh
    simp only [profile, List.map_map, List.mem_map, List.mem_filter, beq_iff_eq]
    exact ⟨r, ⟨hr, hkey.1.symm⟩, hkey.2.symm⟩
  · refine Touches.of_forall ?_ ?_ rfl
    · rw [profile, filter_append_of_key ManaRow.card, if_pos rfl, List.map_append]
      rfl
    · intro m hm
      rw [profile, filter_append_of_key ManaRow.card, if_neg (Ne.symm hm), List.append_nil]
      rfl

theorem addPower_touches {row : PowerRow} (hcard : row.card = some name)
    (hnone : (t.profile name).power = none) (h : t.addPower row = .ok t') :
    Touches name { t.profile name with power := some row } t t' := by
  unfold addPower at h
  obtain ⟨⟨rows, new⟩, hrows, h⟩ := bind_eq_ok.1 h
  cases h
  obtain ⟨hself, hother⟩ := find?_of_inserted PowerRow.card hcard hnone hrows
  refine Touches.of_forall ?_ (fun m hm => ?_) rfl
  · exact congrArg (fun power => ({ t.profile name with power } : Profile)) hself
  · exact congrArg (fun power => ({ t.profile m with power } : Profile)) (hother m hm)

theorem addLoyalty_touches {row : LoyaltyRow} (hcard : row.card = some name)
    (hnone : (t.profile name).loyalty = none) (h : t.addLoyalty row = .ok t') :
    Touches name { t.profile name with loyalty := some row } t t' := by
  unfold addLoyalty at h
  obtain ⟨⟨rows, new⟩, hrows, h⟩ := bind_eq_ok.1 h
  cases h
  obtain ⟨hself, hother⟩ := find?_of_inserted LoyaltyRow.card hcard hnone hrows
  refine Touches.of_forall ?_ (fun m hm => ?_) rfl
  · exact congrArg (fun loyalty => ({ t.profile name with loyalty } : Profile)) hself
  · exact congrArg (fun loyalty => ({ t.profile m with loyalty } : Profile)) (hother m hm)

end Insertions

/-! ## The details of a new card -/

section Details

variable {t t' : Tables} {name : String}

theorem withLabels_withLabels (p : Profile) (s : Side) (ls ls' : List String) :
    (p.withLabels s ls).withLabels s ls' = p.withLabels s ls' := by
  simp [Profile.withLabels]

/-- Labels that are added one after the other are added unless they are there. -/
theorem addLabels_touches {s : Side} {labels : List String}
    (h : t.addLabels s (some name) (labels.map .text) = .ok t') :
    Touches name ((t.profile name).withLabels s (labels.foldl addTo ((t.profile name).labels s)))
      t t' := by
  induction labels generalizing t with
  | nil =>
    cases h
    rw [List.foldl_nil, withLabels_self]
    exact Touches.refl
  | cons label rest ih =>
    rw [List.map_cons, addLabels] at h
    obtain ⟨_, hlabel, h⟩ := bind_eq_ok.1 h
    obtain rfl := Except.ok.inj hlabel
    obtain ⟨mid, hmid, h⟩ := bind_eq_ok.1 h
    have hfirst := addLabel_touches hmid
    have hrest := ih h
    rw [hfirst.self, withLabels_withLabels] at hrest
    have hlabels : ((t.profile name).withLabels s
        (addTo ((t.profile name).labels s) label)).labels s =
        addTo ((t.profile name).labels s) label := Function.update_self _ _ _
    rw [hlabels] at hrest
    exact hfirst.trans hrest

/-- Adding the items of a list to none drops its repetitions. -/
theorem foldl_addTo (ls acc : List String) :
    ls.foldl addTo acc = acc ++ (ls.filter fun l => l ∉ acc).eraseDups := by
  induction ls generalizing acc with
  | nil => simp
  | cons l ls ih =>
    rw [List.foldl_cons, ih, addTo]
    by_cases h : l ∈ acc
    · rw [if_pos h, List.filter_cons_of_neg (by simpa using h)]
    · rw [if_neg h, List.filter_cons_of_pos (by simpa using h), List.eraseDups_cons,
        List.append_assoc, List.singleton_append, List.filter_filter]
      congr 4
      funext x
      by_cases hx : x = l <;> simp [hx, h]

theorem addLabelField_touches {c : Value} (hc : c.isPlainCard = true) {s : Side}
    (hnone : (t.profile name).labels s = [])
    (h : t.addLabelField s (some name) c s.field (s.fallback.map .text) = .ok t') :
    Touches name ((t.profile name).withLabels s (CardObject.labels c s).eraseDups) t t' := by
  unfold addLabelField at h
  obtain ⟨vs, hvs, h⟩ := bind_eq_ok.1 h
  rw [labels_eq hc s (shaped_eq_ok.1 hvs)] at h
  have htouches := addLabels_touches (stored_eq_ok.1 h)
  rw [hnone, foldl_addTo, List.nil_append] at htouches
  simpa using htouches

/-- The symbols of an amount that grows by one symbol. -/
theorem map_fst_plus (symbol : String) (n : Nat) (counts : Counts) :
    (counts.plus symbol n).map Prod.fst = addTo (counts.map Prod.fst) symbol := by
  induction counts with
  | nil => rfl
  | cons q rest ih =>
    obtain ⟨s, m⟩ := q
    rw [Counts.plus, addTo]
    by_cases h : s = symbol
    · simp [h]
    · rw [if_neg h, List.map_cons, List.map_cons, ih, addTo]
      by_cases hrest : symbol ∈ rest.map Prod.fst
      · rw [if_pos hrest, if_pos (List.mem_cons_of_mem _ hrest)]
      · rw [if_neg hrest, if_neg (by simp [Ne.symm h, hrest]), List.cons_append]

theorem nodup_addTo {ls : List String} (h : ls.Nodup) (l : String) : (addTo ls l).Nodup := by
  rw [addTo]
  split
  · exact h
  · rename_i hl
    exact h.append (List.nodup_singleton l) (List.disjoint_singleton.2 hl)

/-- No symbol has two amounts in a cost. -/
theorem nodup_countGroups {gs : List (List Char)} {counts result : Counts}
    (hcounts : (counts.map Prod.fst).Nodup) (h : countGroups counts gs = .ok result) :
    (result.map Prod.fst).Nodup := by
  induction gs generalizing counts with
  | nil =>
    cases h
    exact hcounts
  | cons g gs ih =>
    rw [countGroups] at h
    obtain ⟨amount, -, h⟩ := bind_eq_ok.1 h
    refine ih ?_ h
    cases amount with
    | none => exact hcounts
    | some amount =>
      obtain ⟨symbol, n⟩ := amount
      simp only [map_fst_plus]
      exact nodup_addTo hcounts symbol

theorem addAmounts_touches {counts : Counts}
    (hnodup : ((t.profile name).mana.map Prod.fst ++ counts.map Prod.fst).Nodup)
    (h : t.addAmounts (some name) counts = .ok t') :
    Touches name { t.profile name with
      mana := (t.profile name).mana ++ counts.map fun q => (q.1, (q.2 : Int)) } t t' := by
  induction counts generalizing t with
  | nil =>
    cases h
    rw [List.map_nil, List.append_nil]
    exact Touches.refl
  | cons count rest ih =>
    obtain ⟨symbol, n⟩ := count
    unfold addAmounts at h
    obtain ⟨quantity, hquantity, h⟩ := bind_eq_ok.1 h
    obtain ⟨-, rfl⟩ := storedInteger_eq_ok.1 hquantity
    obtain ⟨mid, hmid, h⟩ := bind_eq_ok.1 h
    -- the symbols differ from each other, so none has an amount before its turn
    rw [List.map_cons, List.append_cons] at hnodup
    have hfresh : symbol ∉ (t.profile name).mana.map Prod.fst := by
      have hfirst := List.Nodup.of_append_left hnodup
      exact fun hmem => (List.nodup_append.1 hfirst).2.2 symbol hmem symbol
        (List.mem_singleton_self symbol) rfl
    have hfirst := addMana_touches hfresh hmid
    have hrest := ih (by rw [hfirst.self, List.map_append]; exact hnodup) h
    rw [hfirst.self] at hrest
    simpa using hfirst.trans hrest

/-- A statistic that is read is the integer that its text starts with. -/
theorem statistic_eq_ok {s : String} {n : Int}
    (h : CardData.statistic (.text s) = .ok n) : n = Text.leadingInteger s.toList := by
  simp only [CardData.statistic] at h
  split at h
  · exact (Except.ok.inj h).symm
  · cases h

/-- The statistics of a card without any are those of its object. -/
theorem addStatistics_touches {c : Value} (hc : c.isPlainCard = true)
    (hpower : (t.profile (CardObject.name c)).power = none)
    (hloyalty : (t.profile (CardObject.name c)).loyalty = none)
    (h : t.addStatistics (some (CardObject.name c)) c = .ok t') :
    Touches (CardObject.name c) { t.profile (CardObject.name c) with
      power := CardObject.power? c, loyalty := CardObject.loyalty? c } t t' := by
  have hpower' := Value.hasText_cases (hasText_of_isPlainCard hc "power" (by decide))
  have htoughness' := Value.hasText_cases (hasText_of_isPlainCard hc "toughness" (by decide))
  have hloyalty' := Value.hasText_cases (hasText_of_isPlainCard hc "loyalty" (by decide))
  unfold addStatistics at h
  obtain ⟨power, hp, h⟩ := bind_eq_ok.1 h
  obtain ⟨toughness, ht, h⟩ := bind_eq_ok.1 h
  obtain ⟨loyalty, hl, h⟩ := bind_eq_ok.1 h
  rw [← Value.memberOf_eq_ok (shaped_eq_ok.1 hp)] at hpower'
  rw [← Value.memberOf_eq_ok (shaped_eq_ok.1 ht)] at htoughness'
  rw [← Value.memberOf_eq_ok (shaped_eq_ok.1 hl)] at hloyalty'
  -- without both power and toughness the loyalty decides
  have halone : (c.textAt? "power" = none ∨ c.textAt? "toughness" = none) →
      (if !loyalty.isNull then t.addLoyaltyField (some (CardObject.name c)) loyalty
        else pure t) = .ok t' →
      Touches (CardObject.name c) { t.profile (CardObject.name c) with
        power := CardObject.power? c, loyalty := CardObject.loyalty? c } t t' := by
    intro hmissing h
    have hnopower : CardObject.power? c = none := by
      unfold CardObject.power?
      rcases hmissing with h | h <;> simp [h]
    rcases hloyalty' with ⟨hnone, rfl⟩ | ⟨l, hsome, rfl⟩
    · obtain rfl := pure_eq_ok.1 h
      have hnoloyalty : CardObject.loyalty? c = none := by
        unfold CardObject.loyalty?
        rcases hmissing with h | h <;> simp [h, hnone]
      rw [hnopower, hnoloyalty, ← hpower, ← hloyalty]
      exact Touches.refl
    · have hloyalty? : CardObject.loyalty? c =
          some ⟨some (CardObject.name c), l, Text.leadingInteger l.toList⟩ := by
        unfold CardObject.loyalty?
        rcases hmissing with h | h <;> simp [h, hsome]
      rw [hnopower, hloyalty?, ← hpower]
      obtain ⟨value, hvalue, h⟩ := bind_eq_ok.1 h
      obtain rfl := statistic_eq_ok (shaped_eq_ok.1 hvalue)
      obtain ⟨_, hfits, h⟩ := bind_eq_ok.1 h
      obtain ⟨-, rfl⟩ := storedInteger_eq_ok.1 (stored_eq_ok.1 hfits)
      exact addLoyalty_touches rfl hloyalty (stored_eq_ok.1 h)
  rcases hpower' with ⟨hnone, rfl⟩ | ⟨p, hpsome, rfl⟩
  · exact halone (.inl hnone) h
  · rcases htoughness' with ⟨hnone, rfl⟩ | ⟨q, hqsome, rfl⟩
    · exact halone (.inr hnone) h
    · have hpower? : CardObject.power? c = some ⟨some (CardObject.name c), p,
          Text.leadingInteger p.toList, q, Text.leadingInteger q.toList⟩ := by
        simp [CardObject.power?, hpsome, hqsome]
      have hnoloyalty : CardObject.loyalty? c = none := by
        simp [CardObject.loyalty?, hpsome, hqsome]
      rw [hpower?, hnoloyalty, ← hloyalty]
      obtain ⟨_, hpv, h⟩ := bind_eq_ok.1 h
      obtain rfl := statistic_eq_ok (shaped_eq_ok.1 hpv)
      obtain ⟨_, hqv, h⟩ := bind_eq_ok.1 h
      obtain rfl := statistic_eq_ok (shaped_eq_ok.1 hqv)
      obtain ⟨_, hpi, h⟩ := bind_eq_ok.1 h
      obtain ⟨-, rfl⟩ := storedInteger_eq_ok.1 (stored_eq_ok.1 hpi)
      obtain ⟨_, hqi, h⟩ := bind_eq_ok.1 h
      obtain ⟨-, rfl⟩ := storedInteger_eq_ok.1 (stored_eq_ok.1 hqi)
      exact addPower_touches rfl hpower (stored_eq_ok.1 h)

/-! ### What the details leave alone -/

/-- The tables without the details of cards. -/
def withoutDetails (t : Tables) : Tables :=
  { t with
    colors := [], colorIdentities := [], supertypes := [], types := [], subtypes := [], mana := [],
    powers := [], loyalties := [] }

section Frame

variable {card : Option String}

theorem addLabels_withoutDetails {s : Side} {labels : List Value}
    (h : t.addLabels s card labels = .ok t') : t'.withoutDetails = t.withoutDetails := by
  induction labels generalizing t with
  | nil =>
    cases h
    rfl
  | cons v rest ih =>
    unfold addLabels at h
    obtain ⟨label, -, h⟩ := bind_eq_ok.1 h
    obtain ⟨mid, hmid, h⟩ := bind_eq_ok.1 h
    obtain ⟨⟨rows, isNew⟩, -, hmid⟩ := bind_eq_ok.1 hmid
    cases hmid
    rw [ih h]
    cases s <;> rfl

theorem addLabelField_withoutDetails {s : Side} {c : Value} {field : String}
    {fallback : List Value} (h : t.addLabelField s card c field fallback = .ok t') :
    t'.withoutDetails = t.withoutDetails := by
  unfold addLabelField at h
  obtain ⟨labels, -, h⟩ := bind_eq_ok.1 h
  exact addLabels_withoutDetails (stored_eq_ok.1 h)

theorem addAmounts_withoutDetails {amounts : Counts} (h : t.addAmounts card amounts = .ok t') :
    t'.withoutDetails = t.withoutDetails := by
  induction amounts generalizing t with
  | nil =>
    cases h
    rfl
  | cons amount rest ih =>
    obtain ⟨symbol, n⟩ := amount
    unfold addAmounts at h
    obtain ⟨quantity, -, h⟩ := bind_eq_ok.1 h
    obtain ⟨mid, hmid, h⟩ := bind_eq_ok.1 h
    obtain ⟨⟨rows, isNew⟩, -, hmid⟩ := bind_eq_ok.1 hmid
    cases hmid
    rw [ih h]
    rfl

theorem addStatistics_withoutDetails {c : Value} (h : t.addStatistics card c = .ok t') :
    t'.withoutDetails = t.withoutDetails := by
  unfold addStatistics at h
  obtain ⟨power, -, h⟩ := bind_eq_ok.1 h
  obtain ⟨toughness, -, h⟩ := bind_eq_ok.1 h
  obtain ⟨loyalty, -, h⟩ := bind_eq_ok.1 h
  split at h
  · obtain ⟨_, -, h⟩ := bind_eq_ok.1 h
    obtain ⟨_, -, h⟩ := bind_eq_ok.1 h
    obtain ⟨_, -, h⟩ := bind_eq_ok.1 h
    obtain ⟨_, -, h⟩ := bind_eq_ok.1 h
    obtain ⟨⟨rows, isNew⟩, -, h⟩ := bind_eq_ok.1 (stored_eq_ok.1 h)
    cases h
    rfl
  · split at h
    · obtain ⟨_, -, h⟩ := bind_eq_ok.1 h
      obtain ⟨_, -, h⟩ := bind_eq_ok.1 h
      obtain ⟨⟨rows, isNew⟩, -, h⟩ := bind_eq_ok.1 (stored_eq_ok.1 h)
      cases h
      rfl
    · cases h
      rfl

theorem addDetails_withoutDetails {c : Value} (h : t.addDetails card c = .ok t') :
    t'.withoutDetails = t.withoutDetails := by
  unfold addDetails at h
  obtain ⟨t₁, h₁, h⟩ := bind_eq_ok.1 h
  obtain ⟨t₂, h₂, h⟩ := bind_eq_ok.1 h
  obtain ⟨t₃, h₃, h⟩ := bind_eq_ok.1 h
  obtain ⟨t₄, h₄, h⟩ := bind_eq_ok.1 h
  obtain ⟨t₅, h₅, h⟩ := bind_eq_ok.1 h
  obtain ⟨_, -, h⟩ := bind_eq_ok.1 h
  obtain ⟨_, -, h⟩ := bind_eq_ok.1 h
  obtain ⟨t₆, h₆, h⟩ := bind_eq_ok.1 h
  calc t'.withoutDetails
    _ = t₆.withoutDetails := addStatistics_withoutDetails h
    _ = t₅.withoutDetails := addAmounts_withoutDetails (stored_eq_ok.1 h₆)
    _ = t₄.withoutDetails := addLabelField_withoutDetails h₅
    _ = t₃.withoutDetails := addLabelField_withoutDetails h₄
    _ = t₂.withoutDetails := addLabelField_withoutDetails h₃
    _ = t₁.withoutDetails := addLabelField_withoutDetails h₂
    _ = t.withoutDetails := addLabelField_withoutDetails h₁

/-- The details of a card bring no card. -/
theorem addDetails_cards {c : Value} (h : t.addDetails card c = .ok t') : t'.cards = t.cards := by
  have hsame := congrArg Tables.cards (addDetails_withoutDetails h)
  exact hsame

end Frame

/-! ### All details -/

/-- The labels of all tables, put in one after the other. -/
theorem withLabels_all (p : Profile) (ls : Side → List String) :
    ((((p.withLabels .color (ls .color)).withLabels .colorIdentity
      (ls .colorIdentity)).withLabels .supertype (ls .supertype)).withLabels .type
        (ls .type)).withLabels .subtype (ls .subtype) = { p with labels := ls } := by
  unfold Profile.withLabels
  congr 1
  funext s
  cases s <;> simp [Function.update]

/-- The details of a new card are those of its object. -/
theorem addDetails_touches {c : Value} (hc : c.isPlainCard = true) {row : CardRow}
    (hbare : t.profile (CardObject.name c) = .bare row)
    (h : t.addDetails (some (CardObject.name c)) c = .ok t') :
    ∃ counts, parseManaCost (c.textAt "manaCost") = .ok counts ∧
      Touches (CardObject.name c)
        ⟨some row, fun s => (CardObject.labels c s).eraseDups,
          counts.map fun q => (q.1, (q.2 : Int)), CardObject.power? c, CardObject.loyalty? c⟩
        t t' := by
  unfold addDetails at h
  obtain ⟨t₁, h₁, h⟩ := bind_eq_ok.1 h
  obtain ⟨t₂, h₂, h⟩ := bind_eq_ok.1 h
  obtain ⟨t₃, h₃, h⟩ := bind_eq_ok.1 h
  obtain ⟨t₄, h₄, h⟩ := bind_eq_ok.1 h
  obtain ⟨t₅, h₅, h⟩ := bind_eq_ok.1 h
  obtain ⟨cost, hcost, h⟩ := bind_eq_ok.1 h
  obtain rfl := textField_eq (hasText_of_isPlainCard hc _ (by decide)) (shaped_eq_ok.1 hcost)
  obtain ⟨counts, hcounts, h⟩ := bind_eq_ok.1 h
  obtain ⟨t₆, h₆, h⟩ := bind_eq_ok.1 h
  have hparsed : parseManaCost (c.textAt "manaCost") = .ok counts := shaped_eq_ok.1 hcounts
  -- each field of labels finds its table without rows of the card
  have k₁ := addLabelField_touches hc (s := .color) (by rw [hbare]; rfl) h₁
  rw [hbare] at k₁
  have k₂ := addLabelField_touches hc (s := .colorIdentity) (by rw [k₁.self]; rfl) h₂
  rw [k₁.self] at k₂
  have k₃ := addLabelField_touches hc (s := .supertype) (by rw [k₂.self]; rfl) h₃
  rw [k₂.self] at k₃
  have k₄ := addLabelField_touches hc (s := .type) (by rw [k₃.self]; rfl) h₄
  rw [k₃.self] at k₄
  have k₅ := addLabelField_touches hc (s := .subtype) (by rw [k₄.self]; rfl) h₅
  rw [k₄.self, withLabels_all (.bare row) fun s => (CardObject.labels c s).eraseDups] at k₅
  have hsymbols : ((t₅.profile (CardObject.name c)).mana.map Prod.fst ++
      counts.map Prod.fst).Nodup := by
    rw [k₅.self]
    have hnone : (([] : Counts).map Prod.fst).Nodup := List.nodup_nil
    exact nodup_countGroups hnone hparsed
  have k₆ := addAmounts_touches hsymbols (stored_eq_ok.1 h₆)
  rw [k₅.self] at k₆
  have k₇ := addStatistics_touches hc (by rw [k₆.self]; rfl) (by rw [k₆.self]; rfl) h
  rw [k₆.self] at k₇
  have hlabels := ((k₁.trans k₂).trans k₃).trans (k₄.trans k₅)
  exact ⟨counts, hparsed, hlabels.trans (k₆.trans k₇)⟩

end Details

/-! ## Cards and printings -/

section Objects

variable {t t' : Tables} {c : Value}

/-- A card of plain details leaves the tables as they are if its name is known or its text is
stored as none. Else it adds its row, and makes the profile of its name the one of this row
and of the details that it describes. -/
theorem addCardRow_plain (hc : c.isPlainCard = true)
    (hunknown : (t.profile (CardObject.name c)).card = none →
      t.profile (CardObject.name c) = .unknown)
    (h : t.addCardRow (.text (CardObject.name c)) c = .ok t') :
    ∃ v text cmc, CardData.textField c "text" = .ok v ∧ storedText 2 v = .ok text ∧
      CardData.cost c CardData.costFields = .ok cmc ∧
      (((text = none ∨ (t.profile (CardObject.name c)).card ≠ none) ∧ t' = t) ∨
        ((t.profile (CardObject.name c)).card = none ∧ ∃ s counts, text = some s ∧
          parseManaCost (c.textAt "manaCost") = .ok counts ∧
          t'.cards = t.cards ++ [⟨some (CardObject.name c), s, cmc, c.textAt "manaCost"⟩] ∧
          Touches (CardObject.name c) { CardObject.profile c cmc counts with
            card := some ⟨some (CardObject.name c), s, cmc, c.textAt "manaCost"⟩ } t t')) := by
  unfold addCardRow at h
  obtain ⟨v, hv, h⟩ := bind_eq_ok.1 h
  obtain ⟨cmc, hcmc, h⟩ := bind_eq_ok.1 h
  obtain ⟨cost, hcost, h⟩ := bind_eq_ok.1 h
  obtain rfl := textField_eq (hasText_of_isPlainCard hc _ (by decide)) (shaped_eq_ok.1 hcost)
  obtain ⟨_, hname, h⟩ := bind_eq_ok.1 h
  obtain rfl := Except.ok.inj hname
  obtain ⟨text, htext, h⟩ := bind_eq_ok.1 h
  obtain ⟨_, hcmc', h⟩ := bind_eq_ok.1 h
  obtain ⟨-, rfl⟩ := storedInteger_eq_ok.1 (stored_eq_ok.1 hcmc')
  obtain ⟨_, hcost', h⟩ := bind_eq_ok.1 h
  obtain rfl := Except.ok.inj hcost'
  obtain ⟨⟨mid, isNew⟩, hmid, h⟩ := bind_eq_ok.1 h
  refine ⟨v, text, cmc, shaped_eq_ok.1 hv, stored_eq_ok.1 htext, shaped_eq_ok.1 hcmc, ?_⟩
  rcases addCard_cases (stored_eq_ok.1 hmid) with
    ⟨rfl, hknown, hsame⟩ | ⟨rfl, hnone, s, hs, hcards, hrow⟩
  · exact .inl ⟨hknown, (pure_eq_ok.1 h).symm.trans hsame⟩
  · -- only now are the details read, and nothing is stored of the name yet
    rw [hunknown hnone] at hrow
    obtain ⟨counts, hcounts, hdetails⟩ := addDetails_touches hc hrow.self h
    exact .inr ⟨hnone, s, counts, hs, hcounts, (addDetails_cards h).trans hcards,
      hrow.trans hdetails⟩

/-- A card object leaves the tables as they are if its name is known, and else makes the
profile of its name the one that it describes. -/
theorem addCardRow_cases (hc : c.isCardObject = true)
    (hunknown : (t.profile (CardObject.name c)).card = none →
      t.profile (CardObject.name c) = .unknown)
    (h : t.addCardRow (.text (CardObject.name c)) c = .ok t') :
    ((t.profile (CardObject.name c)).card ≠ none ∧ t' = t) ∨
      ((t.profile (CardObject.name c)).card = none ∧
        ∃ cmc counts, CardData.cost c CardData.costFields = .ok cmc ∧
          parseManaCost (c.textAt "manaCost") = .ok counts ∧
          Touches (CardObject.name c) (CardObject.profile c cmc counts) t t') := by
  obtain ⟨v, text, cmc, hv, htext, hcmc, hcases⟩ :=
    addCardRow_plain (isPlainCard_of_isCardObject hc) hunknown h
  -- the text of a card object is stored as it is
  obtain rfl := textField_eq (hasText_of_mem hc _ (by decide)) hv
  obtain rfl := Except.ok.inj htext
  rcases hcases with ⟨hknown, hsame⟩ | ⟨hnone, s, counts, hs, hcounts, -, htouches⟩
  · exact .inl ⟨hknown.resolve_left (Option.some_ne_none _), hsame⟩
  · obtain rfl := Option.some.inj hs
    exact .inr ⟨hnone, cmc, counts, hcmc, hcounts, htouches⟩

end Objects

end Tables

/-- The printing that a card object of a set describes. -/
def CardObject.printing (expansion : String) (c : Value) : PrintingRow :=
  ⟨name c, expansion, c.textAt "number", c.textAt "rarity", c.textAt "flavorText",
    c.textAt "artist"⟩

namespace Tables

section Printings

variable {t t' : Tables} {c : Value}

theorem addPrinting_cases (row : PrintingRow) {isNew : Bool}
    (h : t.addPrinting (some row.card) (some row.expansion) (some row.number) (some row.rarity)
      (some row.flavor) (some row.artist) = .ok (t', isNew)) :
    t'.profile = t.profile ∧
      ((isNew = false ∧ t'.printings = t.printings ∧ ∃ r ∈ t.printings, r.key = row.key) ∨
        (isNew = true ∧ t'.printings = t.printings ++ [row] ∧
          ∀ r ∈ t.printings, r.key ≠ row.key)) := by
  unfold addPrinting at h
  obtain ⟨⟨rows, new⟩, hrows, h⟩ := bind_eq_ok.1 h
  cases h
  refine ⟨rfl, ?_⟩
  rcases insertOrSkip_some hrows with ⟨rfl, rfl, htaken⟩ | ⟨rfl, rfl, hnew⟩
  · obtain ⟨r, hr, hsame⟩ := List.any_eq_true.1 htaken
    exact .inl ⟨rfl, rfl, r, hr, (key_eq_iff.2 hsame).symm⟩
  · exact .inr ⟨rfl, rfl, fun r hr hsame =>
      List.any_eq_false.1 hnew r hr (key_eq_iff.1 hsame.symm)⟩

/-- A card object adds its printing unless one of that key is stored. -/
theorem addPrintingRow_cases (hc : c.isCardObject = true) {expansion : String} {isNew : Bool}
    (h : t.addPrintingRow (.text expansion) (.text (CardObject.name c)) c = .ok (t', isNew)) :
    t'.profile = t.profile ∧
      ((isNew = false ∧ t'.printings = t.printings ∧
          ∃ r ∈ t.printings, r.key = (CardObject.printing expansion c).key) ∨
        (isNew = true ∧ t'.printings = t.printings ++ [CardObject.printing expansion c] ∧
          ∀ r ∈ t.printings, r.key ≠ (CardObject.printing expansion c).key)) := by
  unfold addPrintingRow at h
  obtain ⟨number, hnumber, h⟩ := bind_eq_ok.1 h
  obtain ⟨rarity, hrarity, h⟩ := bind_eq_ok.1 h
  obtain ⟨hgiven, h⟩ := refuse_eq_ok.1 h
  have hnumber' : (number.orElse (.text "")).shown = c.textAt "number" := by
    have hread : CardData.textField c "number" = .ok (number.orElse (.text "")) := by
      rw [CardData.textField, shaped_eq_ok.1 hnumber]
      rfl
    rw [textField_eq (hasText_of_mem hc _ (by decide)) hread]
    rfl
  -- a rarity that is given is a text
  have hrarity' : rarity = .text (c.textAt "rarity") := by
    rcases Value.hasText_cases (hasText_of_mem hc "rarity" (by decide)) with
      ⟨-, hnull⟩ | ⟨s, hsome, htext⟩
    · rw [(Value.memberOf_eq_ok (shaped_eq_ok.1 hrarity)).trans hnull] at hgiven
      simp [Value.truthy] at hgiven
    · rw [(Value.memberOf_eq_ok (shaped_eq_ok.1 hrarity)).trans htext, Value.textAt, hsome,
        Option.getD_some]
  rw [hnumber'] at h
  subst hrarity'
  obtain ⟨flavor, hflavor, h⟩ := bind_eq_ok.1 h
  obtain rfl := textField_eq (hasText_of_mem hc _ (by decide)) (shaped_eq_ok.1 hflavor)
  obtain ⟨artist, hartist, h⟩ := bind_eq_ok.1 h
  obtain rfl := textField_eq (hasText_of_mem hc _ (by decide)) (shaped_eq_ok.1 hartist)
  obtain ⟨_, hname, h⟩ := bind_eq_ok.1 h
  obtain rfl := Except.ok.inj hname
  obtain ⟨_, hexpansion, h⟩ := bind_eq_ok.1 h
  obtain rfl := Except.ok.inj hexpansion
  obtain ⟨_, hrarity, h⟩ := bind_eq_ok.1 h
  obtain rfl := Except.ok.inj hrarity
  obtain ⟨_, hflavor, h⟩ := bind_eq_ok.1 h
  obtain rfl := Except.ok.inj hflavor
  obtain ⟨_, hartist, h⟩ := bind_eq_ok.1 h
  obtain rfl := Except.ok.inj hartist
  exact addPrinting_cases (CardObject.printing expansion c) (stored_eq_ok.1 h)

end Printings

/-! ## Sets and groups of faces -/

section Beside

variable {t t' : Tables}

/-- The tables without sets, blocks and groups of faces. -/
def ofCards (t : Tables) : Tables :=
  { t with expansions := [], blocks := [], pairs := [], triples := [] }

/-- The row of a set and its block are no rows of a card. -/
theorem addSetRow_ofCards {name set : Value} (h : t.addSetRow name set = .ok t') :
    t'.ofCards = t.ofCards := by
  unfold addSetRow at h
  obtain ⟨_, -, h⟩ := bind_eq_ok.1 h
  obtain ⟨_, -, h⟩ := bind_eq_ok.1 h
  obtain ⟨_, -, h⟩ := bind_eq_ok.1 h
  obtain ⟨_, -, h⟩ := bind_eq_ok.1 h
  obtain ⟨_, -, h⟩ := bind_eq_ok.1 h
  obtain ⟨_, -, h⟩ := bind_eq_ok.1 h
  obtain ⟨_, -, h⟩ := bind_eq_ok.1 h
  obtain ⟨mid, hmid, h⟩ := bind_eq_ok.1 h
  obtain ⟨block, -, h⟩ := bind_eq_ok.1 h
  have hset : mid.ofCards = t.ofCards := by
    obtain ⟨⟨rows, isNew⟩, -, hmid⟩ := bind_eq_ok.1 (stored_eq_ok.1 hmid)
    cases hmid
    rfl
  split at h
  · cases h
    exact hset
  · obtain ⟨_, -, h⟩ := bind_eq_ok.1 h
    obtain ⟨⟨rows, isNew⟩, -, h⟩ := bind_eq_ok.1 (stored_eq_ok.1 h)
    cases h
    exact hset

/-- A group of faces is no row of a card. -/
theorem addFaces_ofCards {card : Value} {names : List Value} (h : t.addFaces card names = .ok t') :
    t'.ofCards = t.ofCards := by
  unfold addFaces at h
  obtain ⟨layout, -, h⟩ := bind_eq_ok.1 h
  obtain ⟨name, -, h⟩ := bind_eq_ok.1 h
  obtain ⟨-, h⟩ := refuse_eq_ok.1 h
  obtain ⟨-, h⟩ := refuse_eq_ok.1 h
  obtain ⟨faces, -, h⟩ := bind_eq_ok.1 h
  obtain ⟨-, h⟩ := refuse_eq_ok.1 h
  split at h
  · cases h
    rfl
  · obtain ⟨_, -, h⟩ := bind_eq_ok.1 h
    replace h := stored_eq_ok.1 h
    unfold addGroup at h
    split at h
    · obtain ⟨⟨rows, isNew⟩, -, h⟩ := bind_eq_ok.1 h
      cases h
      rfl
    · obtain ⟨⟨rows, isNew⟩, -, h⟩ := bind_eq_ok.1 h
      cases h
      rfl
    · cases h
      rfl

theorem addAllFaces_ofCards {groups : List (Value × List Value)}
    (h : t.addAllFaces groups = .ok t') : t'.ofCards = t.ofCards := by
  induction groups generalizing t with
  | nil =>
    cases h
    rfl
  | cons group rest ih =>
    obtain ⟨card, names⟩ := group
    unfold addAllFaces at h
    obtain ⟨mid, hmid, h⟩ := bind_eq_ok.1 h
    exact (ih h).trans (addFaces_ofCards hmid)

theorem cards_of_ofCards (h : t'.ofCards = t.ofCards) : t'.cards = t.cards := by
  have hcards := congrArg Tables.cards h
  exact hcards

/-- What is left of the tables tells all of cards and printings. -/
theorem beside_of_ofCards (h : t'.ofCards = t.ofCards) :
    t'.profile = t.profile ∧ t'.printings = t.printings := by
  have hprofile := congrArg Tables.profile h
  have hprintings := congrArg Tables.printings h
  exact ⟨hprofile, hprintings⟩

end Beside

end Tables

end CardArchive
