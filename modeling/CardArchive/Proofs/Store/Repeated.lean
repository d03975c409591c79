import CardArchive.Proofs.Store.FirstWins

/-!
# Sets that are taken in again

Every row of a set is inserted unless its key is taken, and no row is ever removed. So when a
set is taken in again, each of its insertions meets the row that it made the first time, or
the one that stood in its way then, and is skipped. A card that is stored without a name has
no key: nothing stands in the way of its row, which is inserted once more each time.

## What this module delivers

* `CardData.isNameless`: the cards that are stored without a name.
* `Strays` and `Tables.withStrays`: rows without a key, and the tables with some of them.
* `insertOrSkip_again`: one insertion for the second time.
* `addCards_again`, `addAllFaces_again`, `addSet_again`: the steps of a set for the second time.
* `insertSet_again`: what a set changes that is taken in again.
* `splitSet_again`, `namelessSet_grows`: a set that changes nothing, and one that adds a row
  each time.
-/

set_option autoImplicit false

namespace CardArchive

/-! ## Cards without a name -/

/-- Whether the row of a card can be completed, but has no name. -/
def CardData.isNamelessAs (name card : Value) : Bool :=
  match CardData.textField card "text", CardData.textField card "manaCost" with
  | .ok text, .ok manaCost =>
    match storedText 1 name, storedText 2 text, storedText 4 manaCost with
    | .ok none, .ok (some _), .ok (some _) => true
    | _, _, _ => false
  | _, _ => false

/-- Whether a card is stored without a name. -/
def CardData.isNameless (card : Value) : Bool :=
  match CardData.name card with
  | .ok name => CardData.isNamelessAs name card
  | .error _ => false

/-- Rows without a key. -/
structure Strays where
  cards : List CardRow
  powers : List PowerRow
  loyalties : List LoyaltyRow
  cards_nameless : ∀ r ∈ cards, r.name = none
  powers_nameless : ∀ r ∈ powers, r.card = none
  loyalties_nameless : ∀ r ∈ loyalties, r.card = none

namespace Strays

/-- No rows. -/
def none : Strays := ⟨[], [], [], nofun, nofun, nofun⟩

/-- The row of a card alone. -/
def ofCard (r : CardRow) (h : r.name = Option.none) : Strays :=
  ⟨[r], [], [], List.forall_mem_singleton.2 h, nofun, nofun⟩

/-- Power and toughness alone. -/
def ofPower (r : PowerRow) (h : r.card = Option.none) : Strays :=
  ⟨[], [r], [], nofun, List.forall_mem_singleton.2 h, nofun⟩

/-- Loyalty alone. -/
def ofLoyalty (r : LoyaltyRow) (h : r.card = Option.none) : Strays :=
  ⟨[], [], [r], nofun, nofun, List.forall_mem_singleton.2 h⟩

/-- Some rows and then others. -/
def append (s s' : Strays) : Strays where
  cards := s.cards ++ s'.cards
  powers := s.powers ++ s'.powers
  loyalties := s.loyalties ++ s'.loyalties
  cards_nameless := List.forall_mem_append.2 ⟨s.cards_nameless, s'.cards_nameless⟩
  powers_nameless := List.forall_mem_append.2 ⟨s.powers_nameless, s'.powers_nameless⟩
  loyalties_nameless := List.forall_mem_append.2 ⟨s.loyalties_nameless, s'.loyalties_nameless⟩

/-- The rows of some cards, each with at most one of statistics. -/
structure Of (s : Strays) (n : Nat) : Prop where
  cards : s.cards.length = n
  statistics : s.powers.length + s.loyalties.length ≤ n

theorem Of.append {s s' : Strays} {m n : Nat} (h : s.Of m) (h' : s'.Of n) :
    (s.append s').Of (m + n) := by
  obtain ⟨hcards, hstatistics⟩ := h
  obtain ⟨hcards', hstatistics'⟩ := h'
  constructor
  · rw [Strays.append, List.length_append, hcards, hcards']
  · simp only [Strays.append, List.length_append]
    omega

theorem of_none : none.Of 0 := ⟨rfl, Nat.le_refl 0⟩

theorem append_assoc (s s' s'' : Strays) :
    (s.append s').append s'' = s.append (s'.append s'') := by
  simp [append]

theorem none_append (s : Strays) : none.append s = s := by
  cases s
  simp [append, none]

theorem append_none (s : Strays) : s.append none = s := by
  cases s
  simp [append, none]

end Strays

namespace Tables

/-- The tables with some rows without a key. -/
def withStrays (t : Tables) (s : Strays) : Tables :=
  { t with
    cards := t.cards ++ s.cards
    powers := t.powers ++ s.powers
    loyalties := t.loyalties ++ s.loyalties }

theorem withStrays_none (t : Tables) : t.withStrays .none = t := by
  simp [withStrays, Strays.none]

theorem withStrays_append (t : Tables) (s s' : Strays) :
    t.withStrays (s.append s') = (t.withStrays s).withStrays s' := by
  simp [withStrays, Strays.append]

/-- Without a card there are no statistics either. -/
theorem withStrays_eq_self {t : Tables} {s : Strays} {n : Nat} (hs : s.Of n) :
    t.withStrays s = t ↔ n = 0 := by
  obtain ⟨hcards, hstatistics⟩ := hs
  constructor
  · intro hsame
    have hlength := congrArg (fun t => t.cards.length) hsame
    simp only [withStrays, List.length_append] at hlength
    omega
  · rintro rfl
    have hpowers : s.powers = [] := List.length_eq_zero_iff.1 (by omega)
    have hloyalties : s.loyalties = [] := List.length_eq_zero_iff.1 (by omega)
    rw [withStrays, List.length_eq_zero_iff.1 hcards, hpowers, hloyalties, List.append_nil,
      List.append_nil, List.append_nil]

/-! ## One insertion again -/

/-- An insertion into rows that have all that it led to the first time is skipped. -/
theorem insertOrSkip_again {ρ : Type} {clash : ρ → ρ → Bool} {refers refers' : ρ → Bool}
    {row : Option ρ} {rows result later : List ρ} {isNew : Bool}
    (hself : ∀ r, row = some r → clash r r = true)
    (h : insertOrSkip clash refers row rows = .ok (result, isNew)) (hlater : result ⊆ later) :
    insertOrSkip clash refers' row later = .ok (later, false) := by
  cases row with
  | none => rfl
  | some r =>
    have htaken : later.any (clash r) = true := by
      rcases insertOrSkip_some h with ⟨-, rfl, htaken⟩ | ⟨-, rfl, -⟩
      · -- what stood in the way still does
        obtain ⟨b, hb, hclash⟩ := List.any_eq_true.1 htaken
        exact List.any_eq_true.2 ⟨b, hlater hb, hclash⟩
      · -- the row itself stands in its way
        have hmem := hlater (List.mem_append_right rows List.mem_cons_self)
        exact List.any_eq_true.2 ⟨r, hmem, hself r rfl⟩
    exact if_pos htaken

section Insertions

variable {t t' u : Tables} {isNew : Bool}

theorem addCard_again {name : String} {text manaCost : Option String} {cmc : Int}
    (h : t.addCard (some name) text cmc manaCost = .ok (t', isNew)) (hlater : t'.cards ⊆ u.cards) :
    u.addCard (some name) text cmc manaCost = .ok (u, false) := by
  obtain ⟨⟨rows, new⟩, hrows, h⟩ := bind_eq_ok.1 h
  cases h
  refine bind_eq_ok.2 ⟨_, insertOrSkip_again (fun r hr => ?_) hrows hlater, rfl⟩
  obtain ⟨s, -, hr⟩ := Option.bind_eq_some_iff.1 hr
  obtain ⟨m, -, hr⟩ := Option.bind_eq_some_iff.1 hr
  cases hr
  simp [sameKey]

theorem addExpansion_again {name code released : Option String} {size : Int}
    (h : t.addExpansion name code size released = .ok t')
    (hlater : t'.expansions ⊆ u.expansions) :
    u.addExpansion name code size released = .ok u := by
  obtain ⟨⟨rows, new⟩, hrows, h⟩ := bind_eq_ok.1 h
  cases h
  -- the code is a key of its own, so the name may be missing
  exact bind_eq_ok.2 ⟨_, insertOrSkip_again (fun r _ => by simp) hrows hlater, rfl⟩

theorem addBlock_again {expansion block : Option String} (h : t.addBlock expansion block = .ok t')
    (hlater : t'.blocks ⊆ u.blocks) : u.addBlock expansion block = .ok u := by
  obtain ⟨⟨rows, new⟩, hrows, h⟩ := bind_eq_ok.1 h
  cases h
  exact bind_eq_ok.2 ⟨_, insertOrSkip_again (fun r _ => by simp) hrows hlater, rfl⟩

theorem addPrinting_again {card expansion number rarity flavor artist : Option String}
    (h : t.addPrinting card expansion number rarity flavor artist = .ok (t', isNew))
    (hlater : t'.printings ⊆ u.printings) :
    u.addPrinting card expansion number rarity flavor artist = .ok (u, false) := by
  obtain ⟨⟨rows, new⟩, hrows, h⟩ := bind_eq_ok.1 h
  cases h
  exact bind_eq_ok.2 ⟨_, insertOrSkip_again (fun r _ => by simp) hrows hlater, rfl⟩

theorem addPair_again {first second layout : Option String} {total : Int}
    (h : t.addPair first second layout total = .ok t') (hlater : t'.pairs ⊆ u.pairs) :
    u.addPair first second layout total = .ok u := by
  obtain ⟨⟨rows, new⟩, hrows, h⟩ := bind_eq_ok.1 h
  cases h
  exact bind_eq_ok.2 ⟨_, insertOrSkip_again (fun r _ => by simp) hrows hlater, rfl⟩

theorem addTriple_again {first second third layout : Option String} {total : Int}
    (h : t.addTriple first second third layout total = .ok t') (hlater : t'.triples ⊆ u.triples) :
    u.addTriple first second third layout total = .ok u := by
  obtain ⟨⟨rows, new⟩, hrows, h⟩ := bind_eq_ok.1 h
  cases h
  exact bind_eq_ok.2 ⟨_, insertOrSkip_again (fun r _ => by simp) hrows hlater, rfl⟩

end Insertions

/-! ## Details without a name -/

section Nameless

variable {t t' : Tables}

/-- Labels of a card without a name are skipped. -/
theorem addLabels_nameless {s : Side} {labels : List Value}
    (h : t.addLabels s none labels = .ok t') (u : Tables) : u.addLabels s none labels = .ok u := by
  induction labels generalizing t with
  | nil => rfl
  | cons v rest ih =>
    obtain ⟨label, hlabel, h⟩ := bind_eq_ok.1 h
    obtain ⟨mid, -, h⟩ := bind_eq_ok.1 h
    have hskipped : u.addLabel s none label = .ok u := by cases s <;> rfl
    exact bind_eq_ok.2 ⟨label, hlabel, bind_eq_ok.2 ⟨u, hskipped, ih h⟩⟩

theorem addLabelField_nameless {s : Side} {card : Value} {field : String} {fallback : List Value}
    (h : t.addLabelField s none card field fallback = .ok t') (u : Tables) :
    u.addLabelField s none card field fallback = .ok u := by
  obtain ⟨labels, hlabels, h⟩ := bind_eq_ok.1 h
  exact bind_eq_ok.2 ⟨labels, hlabels, stored_eq_ok.2 (addLabels_nameless (stored_eq_ok.1 h) u)⟩

theorem addAmounts_nameless {amounts : Counts} (h : t.addAmounts none amounts = .ok t')
    (u : Tables) : u.addAmounts none amounts = .ok u := by
  induction amounts generalizing t with
  | nil => rfl
  | cons amount rest ih =>
    obtain ⟨symbol, n⟩ := amount
    obtain ⟨quantity, hquantity, h⟩ := bind_eq_ok.1 h
    obtain ⟨mid, -, h⟩ := bind_eq_ok.1 h
    exact bind_eq_ok.2 ⟨quantity, hquantity, bind_eq_ok.2 ⟨u, rfl, ih h⟩⟩

/-- A row without a key is inserted, whatever rows are there. -/
theorem insertOrSkip_nameless {ρ : Type} (key : ρ → Option String) {refers : ρ → Bool} {r : ρ}
    (hkey : key r = none) (hrefers : refers r = true) (rows : List ρ) :
    insertOrSkip (fun a b => sameKey (key a) (key b)) refers (some r) rows =
      .ok (rows ++ [r], true) := by
  have hfree : rows.any (fun b => sameKey (key r) (key b)) = false := by
    simp [sameKey, hkey]
  rw [insertOrSkip, if_neg (Bool.eq_false_iff.1 hfree), if_pos hrefers]

theorem addPower_nameless {row : PowerRow} (hcard : row.card = none) (u : Tables) :
    u.addPower row = .ok (u.withStrays (.ofPower row hcard)) := by
  have hrefers : u.refersToCard row.card = true := by
    rw [hcard]
    rfl
  refine bind_eq_ok.2 ⟨_, insertOrSkip_nameless PowerRow.card hcard hrefers _, ?_⟩
  simp [withStrays, Strays.ofPower]

theorem addLoyalty_nameless {row : LoyaltyRow} (hcard : row.card = none) (u : Tables) :
    u.addLoyalty row = .ok (u.withStrays (.ofLoyalty row hcard)) := by
  have hrefers : u.refersToCard row.card = true := by
    rw [hcard]
    rfl
  refine bind_eq_ok.2 ⟨_, insertOrSkip_nameless LoyaltyRow.card hcard hrefers _, ?_⟩
  simp [withStrays, Strays.ofLoyalty]

/-- The statistics of a card without a name are at most one row, the same for all tables. -/
theorem addStatistics_nameless {card : Value} (h : t.addStatistics none card = .ok t') :
    ∃ s : Strays, s.cards = [] ∧ s.powers.length + s.loyalties.length ≤ 1 ∧
      ∀ u : Tables, u.addStatistics none card = .ok (u.withStrays s) := by
  obtain ⟨power, hpower, h⟩ := bind_eq_ok.1 h
  obtain ⟨toughness, htoughness, h⟩ := bind_eq_ok.1 h
  obtain ⟨loyalty, hloyalty, h⟩ := bind_eq_ok.1 h
  have hread : ∀ {u u' : Tables},
      (if !power.isNull && !toughness.isNull then u.addPowerField none power toughness
        else if !loyalty.isNull then u.addLoyaltyField none loyalty else pure u) = .ok u' →
      u.addStatistics none card = .ok u' := fun hu =>
    bind_eq_ok.2 ⟨power, hpower, bind_eq_ok.2 ⟨toughness, htoughness,
      bind_eq_ok.2 ⟨loyalty, hloyalty, hu⟩⟩⟩
  by_cases hboth : (!power.isNull && !toughness.isNull) = true
  · rw [if_pos hboth] at h
    obtain ⟨p, hp, h⟩ := bind_eq_ok.1 h
    obtain ⟨q, hq, h⟩ := bind_eq_ok.1 h
    obtain ⟨p', hp', h⟩ := bind_eq_ok.1 h
    obtain ⟨q', hq', h⟩ := bind_eq_ok.1 h
    refine ⟨.ofPower ⟨none, power.shown, p', toughness.shown, q'⟩ rfl, rfl, Nat.le_refl 1,
      fun u => hread ?_⟩
    rw [if_pos hboth]
    exact bind_eq_ok.2 ⟨p, hp, bind_eq_ok.2 ⟨q, hq, bind_eq_ok.2 ⟨p', hp', bind_eq_ok.2 ⟨q', hq',
      stored_eq_ok.2 (addPower_nameless rfl u)⟩⟩⟩⟩
  · rw [if_neg hboth] at h
    by_cases hgiven : (!loyalty.isNull) = true
    · rw [if_pos hgiven] at h
      obtain ⟨n, hn, h⟩ := bind_eq_ok.1 h
      obtain ⟨n', hn', h⟩ := bind_eq_ok.1 h
      refine ⟨.ofLoyalty ⟨none, loyalty.shown, n'⟩ rfl, rfl, Nat.le_refl 1, fun u => hread ?_⟩
      rw [if_neg hboth, if_pos hgiven]
      exact bind_eq_ok.2 ⟨n, hn, bind_eq_ok.2 ⟨n', hn',
        stored_eq_ok.2 (addLoyalty_nameless rfl u)⟩⟩
    · refine ⟨.none, rfl, Nat.zero_le 1, fun u => hread ?_⟩
      rw [if_neg hboth, if_neg hgiven, withStrays_none]
      rfl

/-- Of the details of a card without a name only the statistics are stored. -/
theorem addDetails_nameless {card : Value} (h : t.addDetails none card = .ok t') :
    ∃ s : Strays, s.cards = [] ∧ s.powers.length + s.loyalties.length ≤ 1 ∧
      ∀ u : Tables, u.addDetails none card = .ok (u.withStrays s) := by
  obtain ⟨t₁, h₁, h⟩ := bind_eq_ok.1 h
  obtain ⟨t₂, h₂, h⟩ := bind_eq_ok.1 h
  obtain ⟨t₃, h₃, h⟩ := bind_eq_ok.1 h
  obtain ⟨t₄, h₄, h⟩ := bind_eq_ok.1 h
  obtain ⟨t₅, h₅, h⟩ := bind_eq_ok.1 h
  obtain ⟨cost, hcost, h⟩ := bind_eq_ok.1 h
  obtain ⟨counts, hcounts, h⟩ := bind_eq_ok.1 h
  obtain ⟨t₆, h₆, h⟩ := bind_eq_ok.1 h
  obtain ⟨s, hcards, hstatistics, hs⟩ := addStatistics_nameless h
  refine ⟨s, hcards, hstatistics, fun u => ?_⟩
  refine bind_eq_ok.2 ⟨u, addLabelField_nameless h₁ u, ?_⟩
  refine bind_eq_ok.2 ⟨u, addLabelField_nameless h₂ u, ?_⟩
  refine bind_eq_ok.2 ⟨u, addLabelField_nameless h₃ u, ?_⟩
  refine bind_eq_ok.2 ⟨u, addLabelField_nameless h₄ u, ?_⟩
  refine bind_eq_ok.2 ⟨u, addLabelField_nameless h₅ u, ?_⟩
  refine bind_eq_ok.2 ⟨cost, hcost, bind_eq_ok.2 ⟨counts, hcounts, ?_⟩⟩
  exact bind_eq_ok.2 ⟨u, stored_eq_ok.2 (addAmounts_nameless (stored_eq_ok.1 h₆) u), hs u⟩

/-- A card without a name adds its row and its statistics, whatever rows are there. -/
theorem addCard_nameless {text manaCost : String} {cmc : Int} (u : Tables) :
    u.addCard none (some text) cmc (some manaCost) =
      .ok (u.withStrays (.ofCard ⟨none, text, cmc, manaCost⟩ rfl), true) := by
  refine bind_eq_ok.2 ⟨_, insertOrSkip_nameless CardRow.name rfl rfl _, ?_⟩
  simp [withStrays, Strays.ofCard]

end Nameless

/-! ## Cards again -/

section Again

variable {t t' T : Tables}

/-- How often a row is stored without a name. -/
def namelessCount (name card : Value) : Nat := if CardData.isNamelessAs name card then 1 else 0

/-- What is read of a card depends on no rows, and tells whether its row has a name. -/
theorem addCardRow_reads {name card : Value} (h : t.addCardRow name card = .ok t') :
    ∃ name' text cmc cost,
      CardData.isNamelessAs name card = (name'.isNone && text.isSome && cost.isSome) ∧
      (∃ mid isNew, t.addCard name' text cmc cost = .ok (mid, isNew) ∧
        (if isNew then mid.addDetails name' card else pure mid) = .ok t') ∧
      ∀ {u u' mid : Tables} {isNew : Bool}, u.addCard name' text cmc cost = .ok (mid, isNew) →
        (if isNew then mid.addDetails name' card else pure mid) = .ok u' →
        u.addCardRow name card = .ok u' := by
  obtain ⟨text, htext, h⟩ := bind_eq_ok.1 h
  obtain ⟨cmc, hcmc, h⟩ := bind_eq_ok.1 h
  obtain ⟨manaCost, hcost, h⟩ := bind_eq_ok.1 h
  obtain ⟨name', hname', h⟩ := bind_eq_ok.1 h
  obtain ⟨text', htext', h⟩ := bind_eq_ok.1 h
  obtain ⟨cmc', hcmc', h⟩ := bind_eq_ok.1 h
  obtain ⟨cost', hcost', h⟩ := bind_eq_ok.1 h
  obtain ⟨⟨mid, isNew⟩, hmid, h⟩ := bind_eq_ok.1 h
  refine ⟨name', text', cmc', cost', ?_, ⟨mid, isNew, stored_eq_ok.1 hmid, h⟩, ?_⟩
  · rw [CardData.isNamelessAs, shaped_eq_ok.1 htext, shaped_eq_ok.1 hcost]
    simp only [stored_eq_ok.1 hname', stored_eq_ok.1 htext', stored_eq_ok.1 hcost']
    cases name' <;> cases text' <;> cases cost' <;> rfl
  · intro u u' mid isNew hrow hu
    refine bind_eq_ok.2 ⟨text, htext, bind_eq_ok.2 ⟨cmc, hcmc, bind_eq_ok.2 ⟨manaCost, hcost, ?_⟩⟩⟩
    refine bind_eq_ok.2 ⟨name', hname', bind_eq_ok.2 ⟨text', htext', ?_⟩⟩
    refine bind_eq_ok.2 ⟨cmc', hcmc', bind_eq_ok.2 ⟨cost', hcost', ?_⟩⟩
    exact bind_eq_ok.2 ⟨_, stored_eq_ok.2 hrow, hu⟩

theorem addCardRow_again {name card : Value} (h : t.addCardRow name card = .ok t')
    (hlater : t'.Extends T) (s : Strays) :
    ∃ s', s'.Of (namelessCount name card) ∧
      (T.withStrays s).addCardRow name card = .ok (T.withStrays (s.append s')) := by
  obtain ⟨name', text', cmc', cost', hnameless, ⟨mid, isNew, hmid, h⟩, hread⟩ :=
    addCardRow_reads h
  -- a row that is skipped leaves everything as it is
  have hskipped : CardData.isNamelessAs name card = false →
      (T.withStrays s).addCard name' text' cmc' cost' = .ok (T.withStrays s, false) →
      ∃ s', s'.Of (namelessCount name card) ∧
        (T.withStrays s).addCardRow name card = .ok (T.withStrays (s.append s')) := by
    intro hnamed hrow
    rw [namelessCount, hnamed]
    refine ⟨.none, Strays.of_none, ?_⟩
    rw [Strays.append_none]
    exact hread hrow rfl
  cases name' with
  | some n =>
    have hcards : mid.cards ⊆ T.cards := by
      cases isNew with
      | true =>
        rw [← addDetails_cards h]
        exact hlater.cards.subset
      | false =>
        obtain rfl := pure_eq_ok.1 h
        exact hlater.cards.subset
    refine hskipped hnameless (addCard_again hmid ?_)
    exact fun r hr => List.mem_append_left _ (hcards hr)
  | none =>
    cases text' with
    | none => exact hskipped hnameless rfl
    | some text' =>
      cases cost' with
      | none => exact hskipped hnameless rfl
      | some cost' =>
        rw [addCard_nameless] at hmid
        obtain ⟨rfl, rfl⟩ := Prod.mk.inj (Except.ok.inj hmid)
        obtain ⟨s', hcards, hstatistics, hs'⟩ := addDetails_nameless h
        refine ⟨(Strays.ofCard ⟨none, text', cmc', cost'⟩ rfl).append s', ?_, ?_⟩
        · rw [namelessCount, hnameless]
          exact ⟨by simp [Strays.append, Strays.ofCard, hcards],
            by simpa [Strays.append, Strays.ofCard] using hstatistics⟩
        · rw [withStrays_append, withStrays_append]
          exact hread (addCard_nameless _) (hs' _)

theorem addPrintingRow_again {expansion name card : Value} {isNew : Bool} {u : Tables}
    (h : t.addPrintingRow expansion name card = .ok (t', isNew))
    (hlater : t'.printings ⊆ u.printings) :
    u.addPrintingRow expansion name card = .ok (u, false) := by
  obtain ⟨number, hnumber, h⟩ := bind_eq_ok.1 h
  obtain ⟨rarity, hrarity, h⟩ := bind_eq_ok.1 h
  obtain ⟨hgiven, h⟩ := refuse_eq_ok.1 h
  obtain ⟨flavor, hflavor, h⟩ := bind_eq_ok.1 h
  obtain ⟨artist, hartist, h⟩ := bind_eq_ok.1 h
  obtain ⟨name', hname', h⟩ := bind_eq_ok.1 h
  obtain ⟨expansion', hexpansion', h⟩ := bind_eq_ok.1 h
  obtain ⟨rarity', hrarity', h⟩ := bind_eq_ok.1 h
  obtain ⟨flavor', hflavor', h⟩ := bind_eq_ok.1 h
  obtain ⟨artist', hartist', h⟩ := bind_eq_ok.1 h
  refine bind_eq_ok.2 ⟨number, hnumber, bind_eq_ok.2 ⟨rarity, hrarity, ?_⟩⟩
  refine refuse_eq_ok.2 ⟨hgiven, ?_⟩
  refine bind_eq_ok.2 ⟨flavor, hflavor, bind_eq_ok.2 ⟨artist, hartist, ?_⟩⟩
  refine bind_eq_ok.2 ⟨name', hname', bind_eq_ok.2 ⟨expansion', hexpansion', ?_⟩⟩
  refine bind_eq_ok.2 ⟨rarity', hrarity', bind_eq_ok.2 ⟨flavor', hflavor', ?_⟩⟩
  refine bind_eq_ok.2 ⟨artist', hartist', ?_⟩
  exact stored_eq_ok.2 (addPrinting_again (stored_eq_ok.1 h) hlater)

theorem addCardData_again {expansion card : Value} {isNew : Bool}
    (h : t.addCardData expansion card = .ok (t', isNew)) (hlater : t'.Extends T) (s : Strays) :
    ∃ s', s'.Of (if CardData.isNameless card then 1 else 0) ∧
      (T.withStrays s).addCardData expansion card = .ok (T.withStrays (s.append s'), false) := by
  obtain ⟨name, hname, h⟩ := bind_eq_ok.1 h
  obtain ⟨mid, hmid, h⟩ := bind_eq_ok.1 h
  have hmidLater : mid.Extends T := (addPrintingRow_grows h).extends.trans hlater
  obtain ⟨s', hs', hrow⟩ := addCardRow_again hmid hmidLater s
  have hcount : (if CardData.isNameless card then 1 else 0) = namelessCount name card := by
    rw [CardData.isNameless, shaped_eq_ok.1 hname, namelessCount]
  refine ⟨s', hcount ▸ hs', bind_eq_ok.2 ⟨name, hname, bind_eq_ok.2 ⟨_, hrow, ?_⟩⟩⟩
  exact addPrintingRow_again h hlater.printings.subset

/-- Cards that are taken in again change nothing but for those without a name. -/
theorem addCards_again {expansion : Value} {cards : List Value} {i : Intake}
    (h : t.addCards expansion cards = .ok i) (hlater : i.tables.Extends T) (s : Strays) :
    ∃ s', s'.Of (cards.countP CardData.isNameless) ∧
      (T.withStrays s).addCards expansion cards =
        .ok ⟨T.withStrays (s.append s'), 0, i.faces⟩ := by
  -- induction on the cards, with the nameless rows that those before them have added
  induction cards generalizing t i s with
  | nil =>
    cases h
    refine ⟨.none, Strays.of_none, ?_⟩
    rw [Strays.append_none]
    rfl
  | cons card rest ih =>
    obtain ⟨⟨mid, isNew⟩, hmid, h⟩ := bind_eq_ok.1 h
    obtain ⟨faces, hfaces, h⟩ := bind_eq_ok.1 h
    obtain ⟨later, hrest, h⟩ := bind_eq_ok.1 h
    obtain rfl := pure_eq_ok.1 h
    have hmidLater : mid.Extends T := (addCards_grows hrest).extends.trans hlater
    obtain ⟨s₁, hs₁, hcard⟩ := addCardData_again hmid hmidLater s
    obtain ⟨s₂, hs₂, hcards⟩ := ih hrest hlater (s.append s₁)
    refine ⟨s₁.append s₂, ?_, ?_⟩
    · rw [List.countP_cons, Nat.add_comm]
      exact hs₁.append hs₂
    · refine bind_eq_ok.2 ⟨_, hcard, bind_eq_ok.2 ⟨faces, hfaces, bind_eq_ok.2 ⟨_, hcards, ?_⟩⟩⟩
      rw [Strays.append_assoc]
      rfl

/-! ## Groups of faces and sets again -/

theorem addGroup_again {names : List (Option String)} {layout : Option String} {total : Int}
    {u : Tables} (h : t.addGroup names layout total = .ok t') (hpairs : t'.pairs ⊆ u.pairs)
    (htriples : t'.triples ⊆ u.triples) : u.addGroup names layout total = .ok u := by
  rcases names with _ | ⟨a, _ | ⟨b, _ | ⟨c, _ | ⟨d, rest⟩⟩⟩⟩
  · rfl
  · rfl
  · exact addPair_again h hpairs
  · exact addTriple_again h htriples
  · rfl

/-- Rows without a name are no faces. -/
theorem faceRows_withStrays (s : Strays) (hcards : t.cards = T.cards)
    (names : List (Option String)) : (T.withStrays s).faceRows names = t.faceRows names := by
  have hnone : s.cards.filter (fun c => c.name.isSome && names.contains c.name) = [] := by
    refine List.filter_eq_nil_iff.2 fun r hr => ?_
    simp [s.cards_nameless r hr]
  rw [faceRows, faceRows, withStrays, List.filter_append, hnone, List.append_nil, hcards]

theorem addFaces_again {card : Value} {names : List Value} (h : t.addFaces card names = .ok t')
    (hcards : t.cards = T.cards) (hlater : t'.Extends T) (s : Strays) :
    (T.withStrays s).addFaces card names = .ok (T.withStrays s) := by
  obtain ⟨layout, hlayout, h⟩ := bind_eq_ok.1 h
  obtain ⟨name, hname, h⟩ := bind_eq_ok.1 h
  obtain ⟨hgiven, h⟩ := refuse_eq_ok.1 h
  obtain ⟨hcount, h⟩ := refuse_eq_ok.1 h
  obtain ⟨faces, hfaces, h⟩ := bind_eq_ok.1 h
  obtain ⟨hsum, h⟩ := refuse_eq_ok.1 h
  refine bind_eq_ok.2 ⟨layout, hlayout, bind_eq_ok.2 ⟨name, hname, ?_⟩⟩
  refine refuse_eq_ok.2 ⟨hgiven, refuse_eq_ok.2 ⟨hcount, bind_eq_ok.2 ⟨faces, hfaces, ?_⟩⟩⟩
  rw [faceRows_withStrays s hcards]
  refine refuse_eq_ok.2 ⟨hsum, ?_⟩
  by_cases hmissing : (t.faceRows faces).length ≠ names.length
  · rw [if_pos hmissing]
    rfl
  · rw [if_neg hmissing] at h ⊢
    obtain ⟨layout', hlayout', h⟩ := bind_eq_ok.1 h
    refine bind_eq_ok.2 ⟨layout', hlayout', stored_eq_ok.2 ?_⟩
    exact addGroup_again (stored_eq_ok.1 h) hlater.pairs.subset hlater.triples.subset

theorem addAllFaces_again {groups : List (Value × List Value)} (h : t.addAllFaces groups = .ok t')
    (hcards : t.cards = T.cards) (hlater : t'.Extends T) (s : Strays) :
    (T.withStrays s).addAllFaces groups = .ok (T.withStrays s) := by
  induction groups generalizing t with
  | nil => rfl
  | cons group rest ih =>
    obtain ⟨card, names⟩ := group
    obtain ⟨mid, hmid, h⟩ := bind_eq_ok.1 h
    have hmidCards := cards_of_ofCards (addFaces_ofCards hmid)
    have hmidLater : mid.Extends T := (addAllFaces_grows h).extends.trans hlater
    refine bind_eq_ok.2 ⟨_, addFaces_again hmid hcards hmidLater s, ?_⟩
    exact ih h (hmidCards.trans hcards)

theorem addSetRow_again {name set : Value} (h : t.addSetRow name set = .ok t')
    (hlater : t'.Extends T) : T.addSetRow name set = .ok T := by
  obtain ⟨code, hcode, h⟩ := bind_eq_ok.1 h
  obtain ⟨code', hcode', h⟩ := bind_eq_ok.1 h
  obtain ⟨size, hsize, h⟩ := bind_eq_ok.1 h
  obtain ⟨released, hreleased, h⟩ := bind_eq_ok.1 h
  obtain ⟨name', hname', h⟩ := bind_eq_ok.1 h
  obtain ⟨size', hsize', h⟩ := bind_eq_ok.1 h
  obtain ⟨released', hreleased', h⟩ := bind_eq_ok.1 h
  obtain ⟨mid, hmid, h⟩ := bind_eq_ok.1 h
  obtain ⟨block, hblock, h⟩ := bind_eq_ok.1 h
  refine bind_eq_ok.2 ⟨code, hcode, bind_eq_ok.2 ⟨code', hcode', bind_eq_ok.2 ⟨size, hsize, ?_⟩⟩⟩
  refine bind_eq_ok.2 ⟨released, hreleased, bind_eq_ok.2 ⟨name', hname', ?_⟩⟩
  refine bind_eq_ok.2 ⟨size', hsize', bind_eq_ok.2 ⟨released', hreleased', ?_⟩⟩
  by_cases hgiven : (!block.truthy) = true
  · rw [if_pos hgiven] at h
    obtain rfl := pure_eq_ok.1 h
    refine bind_eq_ok.2 ⟨T, stored_eq_ok.2 ?_, bind_eq_ok.2 ⟨block, hblock, ?_⟩⟩
    · exact addExpansion_again (stored_eq_ok.1 hmid) hlater.expansions.subset
    · rw [if_pos hgiven]
      rfl
  · rw [if_neg hgiven] at h
    obtain ⟨block', hblock', h⟩ := bind_eq_ok.1 h
    have hmidLater : mid.Extends T := (addBlock_grows (stored_eq_ok.1 h)).extends.trans hlater
    refine bind_eq_ok.2 ⟨T, stored_eq_ok.2 ?_, bind_eq_ok.2 ⟨block, hblock, ?_⟩⟩
    · exact addExpansion_again (stored_eq_ok.1 hmid) hmidLater.expansions.subset
    · rw [if_neg hgiven]
      refine bind_eq_ok.2 ⟨block', hblock', stored_eq_ok.2 ?_⟩
      exact addBlock_again (stored_eq_ok.1 h) hlater.blocks.subset

/-- What is no list of cards has none. -/
theorem elements_eq_itemsAt {set v expansion : Value} {cards : List Value} {i : Intake}
    (hv : set.item "cards" = .ok v) (hcards : v.elements = .ok cards)
    (h : t.addCards expansion cards = .ok i) : cards = set.itemsAt "cards" := by
  rw [Value.itemsAt_of_item hv]
  rcases Value.elements_cases hcards with rfl | ⟨hitems, htexts⟩
  · rfl
  · rw [hitems]
    cases cards with
    | nil => rfl
    | cons c rest =>
      -- texts have no fields, so there is no name to read
      obtain ⟨s, rfl⟩ := htexts c List.mem_cons_self
      obtain ⟨_, hcard, -⟩ := bind_eq_ok.1 h
      obtain ⟨_, hname, -⟩ := bind_eq_ok.1 hcard
      cases hname

/-- A set that is taken in again adds no printing, and no row but those without a name. -/
theorem addSet_again {name set : Value} {n : Nat} (h : t.addSet name set = .ok (T, n)) :
    ∃ s : Strays, s.Of ((set.itemsAt "cards").countP CardData.isNameless) ∧
      T.addSet name set = .ok (T.withStrays s, 0) := by
  obtain ⟨t₁, h₁, h⟩ := bind_eq_ok.1 h
  obtain ⟨v, hv, h⟩ := bind_eq_ok.1 h
  obtain ⟨listed, hlisted, h⟩ := bind_eq_ok.1 h
  obtain ⟨intake, hintake, h⟩ := bind_eq_ok.1 h
  obtain ⟨t₂, h₂, h⟩ := bind_eq_ok.1 h
  obtain ⟨rfl, rfl⟩ := Prod.mk.inj (pure_eq_ok.1 h)
  have hfaces : intake.tables.Extends t₂ := (addAllFaces_grows h₂).extends
  have hrow : t₁.Extends t₂ := (addCards_grows hintake).extends.trans hfaces
  have hcards := cards_of_ofCards (addAllFaces_ofCards h₂)
  obtain rfl := elements_eq_itemsAt (shaped_eq_ok.1 hv) (shaped_eq_ok.1 hlisted) hintake
  obtain ⟨s, hs, hagain⟩ := addCards_again hintake hfaces .none
  rw [withStrays_none, Strays.none_append] at hagain
  refine ⟨s, hs, bind_eq_ok.2 ⟨t₂, addSetRow_again h₁ hrow, ?_⟩⟩
  refine bind_eq_ok.2 ⟨v, hv, bind_eq_ok.2 ⟨_, hlisted, bind_eq_ok.2 ⟨_, hagain, ?_⟩⟩⟩
  exact bind_eq_ok.2 ⟨_, addAllFaces_again h₂ hcards.symm (.refl t₂) s, rfl⟩

end Again

end Tables

/-! ## The result -/

namespace Database

/-- A set that is taken in leaves no transaction open. -/
theorem insertSet_closed {db : Database} {set : Value} {n : Nat}
    (h : (db.insertSet set).2 = .ok n) : (db.insertSet set).1.isOpen = false := by
  unfold insertSet at h ⊢
  cases hname : setName set with
  | error e =>
    rw [hname] at h
    cases h
  | ok name =>
    rw [hname] at h
    exact (transact_ok h).2.2

/-- The database after a set that has been taken in, and then again. -/
theorem insertSet_twice {db : Database} {set : Value} {n : Nat}
    (h : (db.insertSet set).2 = .ok n) :
    ∃ s : Strays, s.Of ((set.itemsAt "cards").countP CardData.isNameless) ∧
      (db.insertSet set).1.insertSet set =
        (⟨(db.insertSet set).1.tables.withStrays s, false⟩, .ok 0) := by
  obtain ⟨name, hname, hadded⟩ := insertSet_ok h
  obtain ⟨s, hs, hagain⟩ := Tables.addSet_again hadded
  refine ⟨s, hs, ?_⟩
  have hclosed := insertSet_closed h
  generalize (db.insertSet set).1 = once at hagain hclosed
  rw [insertSet, hname]
  exact transact_of_ok hclosed hagain

end Database

/-- A set that is taken in once more is answered by no printings, and every table is left as
it was, but for one row for each of its cards that is stored without a name, and at most one
row of statistics for each of these. So nothing at all is changed exactly if every card of
the set that is stored has a name. -/
theorem insertSet_again {db : Database} {set : Value} {n : Nat}
    (h : (db.insertSet set).2 = .ok n) :
    let once := (db.insertSet set).1
    (once.insertSet set).2 = .ok 0 ∧
      (∃ s : Strays, s.Of ((set.itemsAt "cards").countP CardData.isNameless) ∧
        (once.insertSet set).1 = ⟨once.tables.withStrays s, false⟩) ∧
      ((once.insertSet set).1 = once ↔
        ∀ card ∈ set.itemsAt "cards", CardData.isNameless card = false) := by
  intro once
  obtain ⟨s, hs, hagain⟩ := Database.insertSet_twice h
  have hclosed := Database.insertSet_closed h
  have hsame : (once.insertSet set).1 = once ↔ once.tables.withStrays s = once.tables := by
    rw [hagain]
    constructor
    · exact congrArg Database.tables
    · intro htables
      rw [htables]
      exact Database.closed_eq hclosed
  refine ⟨by rw [hagain], ⟨s, hs, by rw [hagain]⟩, ?_⟩
  rw [hsame, Tables.withStrays_eq_self hs, List.countP_eq_zero]
  simp only [Bool.not_eq_true]

/-- A set with a card of two halves. -/
def splitSet : Value :=
  let half (name number : String) : Value :=
    .object [("name", .text name), ("names", .list [.text "Fire", .text "Ice"]),
      ("layout", .text "split"), ("number", .text number), ("rarity", .text "uncommon"),
      ("types", .list [.text "Instant"])]
  .object [("name", .text "Apocalypse"), ("code", .text "APC"), ("releaseDate", .text "2001-06-04"),
    ("block", .text "Invasion"), ("cards", .list [half "Fire" "128a", half "Ice" "128b"])]

theorem splitSet_again :
    (Database.empty.insertSet splitSet).2 = .ok 2 ∧
      ((Database.empty.insertSet splitSet).1.insertSet splitSet).2 = .ok 0 ∧
      ((Database.empty.insertSet splitSet).1.insertSet splitSet).1 =
        (Database.empty.insertSet splitSet).1 := by
  have htaken : (Database.empty.insertSet splitSet).2 = .ok 2 := by decide +kernel
  obtain ⟨hnone, -, hsame⟩ := insertSet_again htaken
  exact ⟨htaken, hnone, hsame.2 (by decide +kernel)⟩

/-- A set whose only card has no name. -/
def namelessSet : Value :=
  .object [("name", .text "Alpha"), ("code", .text "LEA"), ("releaseDate", .text "1993-08-05"),
    ("cards", .list [.object [("name", .null), ("names", .list [.text "Fire", .text "Ice"]),
      ("layout", .text "split"), ("number", .text "46"), ("rarity", .text "uncommon")]])]

/-- The card without a name is stored once more when its set is taken in again. -/
theorem namelessSet_grows :
    let once := Database.empty.insertSet namelessSet
    let twice := once.1.insertSet namelessSet
    once.2 = .ok 0 ∧ twice.2 = .ok 0 ∧ once.1.tables.cards = [⟨none, "", 0, ""⟩] ∧
      twice.1.tables.cards = [⟨none, "", 0, ""⟩, ⟨none, "", 0, ""⟩] := by
  decide +kernel

end CardArchive
