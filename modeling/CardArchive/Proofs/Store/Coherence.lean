import CardArchive.Proofs.Store.FirstWins

/-!
# Tables that agree on each card

The rows of a card lie in nine tables, and each is inserted by a statement of its own that may
be skipped. Only a card whose own row is new has its details inserted, so the details of a
card are always those of the object that its row came from. Whoever reads the tables counts
on them to agree: that the amounts of mana are those of the cost, that no card is without a
color, and that the numbers beside printed statistics are those of the texts.

## What this module delivers

* `Value.isPlainSet`: the sets whose cards have names and details of known types.
* `Profile.Agrees` and `Tables.Agrees`: the details of each card against its row.
* `Agrees.cardRow`, `Agrees.set`, `agrees_afterSets`: one card, one set, any sets.
* `FirstOfKey` and `Tables.Keyed`: the keys and the references that insertions respect.
* `Tables.Coherent` and `coherent_afterSets`: the agreement in terms of rows.
-/

set_option autoImplicit false

namespace CardArchive

/-! ## Sets of plain cards -/

/-- Whether the cards of a set have names and details of known types. -/
def Value.isPlainSet (v : Value) : Bool := (v.itemsAt "cards").all isPlainCard

/-- What is taken for a card in something else than a list is a text, without any field. -/
theorem isPlainCard_of_isPlainSet {set v : Value} {cards : List Value}
    (hset : set.isPlainSet = true) (hv : set.item "cards" = .ok v)
    (hcards : v.elements = .ok cards) : ∀ c ∈ cards, c.isPlainCard = true := by
  rcases Value.elements_cases hcards with rfl | ⟨-, htexts⟩
  · rw [Value.isPlainSet, Value.itemsAt_of_item hv] at hset
    exact fun c hc => List.all_eq_true.1 hset c hc
  · intro c hc
    obtain ⟨s, rfl⟩ := htexts c hc
    rfl

/-! ## Amounts of a cost -/

theorem one_le_of_contribution {content : List Char} {symbol : String} {n : Nat}
    (h : contribution content = .ok (some (symbol, n))) : 1 ≤ n := by
  unfold contribution at h
  split at h
  · obtain ⟨m, -, h⟩ := bind_eq_ok.1 h
    have hamount := pure_eq_ok.1 h
    split at hamount
    · obtain ⟨-, rfl⟩ := Prod.mk.inj (Option.some.inj hamount)
      omega
    · cases hamount
  · obtain ⟨-, rfl⟩ := Prod.mk.inj (Option.some.inj (Except.ok.inj h))
    exact Nat.le_refl 1

theorem one_le_plus {counts : Counts} (h : ∀ q ∈ counts, 1 ≤ q.2) {symbol : String} {n : Nat}
    (hn : 1 ≤ n) : ∀ q ∈ counts.plus symbol n, 1 ≤ q.2 := by
  induction counts with
  | nil => exact List.forall_mem_singleton.2 hn
  | cons q rest ih =>
    obtain ⟨s, m⟩ := q
    obtain ⟨hm, hrest⟩ := List.forall_mem_cons.1 h
    rw [Counts.plus]
    split
    · exact List.forall_mem_cons.2 ⟨Nat.le_add_right_of_le hm, hrest⟩
    · exact List.forall_mem_cons.2 ⟨hm, ih hrest⟩

/-- What is counted has been met at least once. -/
theorem one_le_countGroups {gs : List (List Char)} {counts result : Counts}
    (hcounts : ∀ q ∈ counts, 1 ≤ q.2) (h : countGroups counts gs = .ok result) :
    ∀ q ∈ result, 1 ≤ q.2 := by
  induction gs generalizing counts with
  | nil =>
    obtain rfl := Except.ok.inj h
    exact hcounts
  | cons g gs ih =>
    rw [countGroups] at h
    obtain ⟨amount, hamount, h⟩ := bind_eq_ok.1 h
    refine ih ?_ h
    cases amount with
    | none => exact hcounts
    | some amount => exact one_le_plus hcounts (one_le_of_contribution hamount)

theorem one_le_parseManaCost {cost : String} {counts : Counts}
    (h : parseManaCost cost = .ok counts) : ∀ q ∈ counts, 1 ≤ q.2 :=
  one_le_countGroups (List.forall_mem_nil _) h

/-! ## Details and rows -/

/-- The details of a card agree with its row and with each other. -/
structure Profile.Agrees (p : Profile) (row : CardRow) : Prop where
  mana : ∃ counts, parseManaCost row.manaCost = .ok counts ∧
    p.mana = counts.map fun q => (q.1, (q.2 : Int))
  color : p.labels .color ≠ []
  colorIdentity : p.labels .colorIdentity ≠ []
  power : ∀ r, p.power = some r → r.powerValue = Text.leadingInteger r.power.toList ∧
    r.toughnessValue = Text.leadingInteger r.toughness.toList
  loyalty : ∀ r, p.loyalty = some r → r.value = Text.leadingInteger r.loyalty.toList
  statistics : p.power = none ∨ p.loyalty = none

namespace CardObject

variable {c : Value}

theorem labels_ne_nil {s : Side} (hs : s.fallback ≠ []) : (labels c s).eraseDups ≠ [] := by
  have hlabels : labels c s ≠ [] := by
    rw [labels]
    split
    · exact hs
    · assumption
  obtain ⟨l, rest, hcons⟩ := List.exists_cons_of_ne_nil hlabels
  rw [hcons, List.eraseDups_cons]
  exact List.cons_ne_nil _ _

theorem power?_values {r : PowerRow} (h : power? c = some r) :
    r.powerValue = Text.leadingInteger r.power.toList ∧
      r.toughnessValue = Text.leadingInteger r.toughness.toList := by
  unfold power? at h
  split at h
  · obtain rfl := Option.some.inj h
    exact ⟨rfl, rfl⟩
  · cases h

theorem loyalty?_value {r : LoyaltyRow} (h : loyalty? c = some r) :
    r.value = Text.leadingInteger r.loyalty.toList := by
  unfold loyalty? at h
  split at h
  · cases h
  · obtain rfl := Option.some.inj h
    rfl
  · cases h

/-- A card with power and toughness has no loyalty. -/
theorem power?_or_loyalty? (c : Value) : power? c = none ∨ loyalty? c = none := by
  unfold power? loyalty?
  cases c.textAt? "power" with
  | none => exact .inl rfl
  | some p =>
    cases c.textAt? "toughness" with
    | none => exact .inl rfl
    | some t => exact .inr rfl

/-- What a card object describes agrees with a row that has its cost. -/
theorem profile_agrees {cmc : Int} {counts : Counts} {row : CardRow}
    (hcounts : parseManaCost (c.textAt "manaCost") = .ok counts)
    (hrow : row.manaCost = c.textAt "manaCost") :
    Profile.Agrees { profile c cmc counts with card := some row } row where
  mana := ⟨counts, by rw [hrow, hcounts], rfl⟩
  color := labels_ne_nil (List.cons_ne_nil _ _)
  colorIdentity := labels_ne_nil (List.cons_ne_nil _ _)
  power _ h := power?_values h
  loyalty _ h := loyalty?_value h
  statistics := power?_or_loyalty? c

end CardObject

/-- Every card has a name and the details that its row calls for, and nothing is stored of a
name without a row. -/
structure Tables.Agrees (t : Tables) : Prop where
  named : ∀ r ∈ t.cards, r.name ≠ none
  unknown : ∀ name, (t.profile name).card = none → t.profile name = .unknown
  known : ∀ name row, (t.profile name).card = some row → (t.profile name).Agrees row

namespace Tables.Agrees

variable {t t' : Tables}

theorem empty : Tables.empty.Agrees where
  named _ hr := nomatch hr
  unknown name _ := Mirrors.empty.unknown name rfl
  known _ _ h := nomatch h

/-- Only the rows of cards and their details count. -/
theorem of_same (h : t.Agrees) (hcards : t'.cards = t.cards) (hprofile : t'.profile = t.profile) :
    t'.Agrees where
  named := hcards ▸ h.named
  unknown := hprofile ▸ h.unknown
  known := hprofile ▸ h.known

/-- A card of plain details. -/
theorem cardRow {c : Value} (hc : c.isPlainCard = true) (h : t.Agrees)
    (hadded : t.addCardRow (.text (CardObject.name c)) c = .ok t') : t'.Agrees := by
  obtain ⟨v, text, cmc, -, -, -, hcases⟩ := addCardRow_plain hc (h.unknown _) hadded
  rcases hcases with ⟨-, rfl⟩ | ⟨hnone, s, counts, -, hcounts, hcards, htouches⟩
  · exact h
  · refine ⟨?_, ?_, ?_⟩
    · rw [hcards]
      refine List.forall_mem_append.2 ⟨h.named, List.forall_mem_singleton.2 ?_⟩
      exact Option.some_ne_none _
    · intro name hcard
      rw [htouches.profile] at hcard ⊢
      by_cases hname : name = CardObject.name c
      · subst hname
        rw [Function.update_self] at hcard
        cases hcard
      · rw [Function.update_of_ne hname] at hcard ⊢
        exact h.unknown name hcard
    · intro name row hcard
      rw [htouches.profile] at hcard ⊢
      by_cases hname : name = CardObject.name c
      · subst hname
        rw [Function.update_self] at hcard ⊢
        obtain rfl := Option.some.inj hcard
        exact CardObject.profile_agrees hcounts rfl
      · rw [Function.update_of_ne hname] at hcard ⊢
        exact h.known name row hcard

/-- A printing says nothing of its card. -/
theorem printingRow {expansion name c : Value} {isNew : Bool} (h : t.Agrees)
    (hadded : t.addPrintingRow expansion name c = .ok (t', isNew)) : t'.Agrees := by
  unfold addPrintingRow at hadded
  obtain ⟨_, -, hadded⟩ := bind_eq_ok.1 hadded
  obtain ⟨_, -, hadded⟩ := bind_eq_ok.1 hadded
  obtain ⟨-, hadded⟩ := refuse_eq_ok.1 hadded
  obtain ⟨_, -, hadded⟩ := bind_eq_ok.1 hadded
  obtain ⟨_, -, hadded⟩ := bind_eq_ok.1 hadded
  obtain ⟨_, -, hadded⟩ := bind_eq_ok.1 hadded
  obtain ⟨_, -, hadded⟩ := bind_eq_ok.1 hadded
  obtain ⟨_, -, hadded⟩ := bind_eq_ok.1 hadded
  obtain ⟨_, -, hadded⟩ := bind_eq_ok.1 hadded
  obtain ⟨_, -, hadded⟩ := bind_eq_ok.1 hadded
  obtain ⟨⟨rows, new⟩, -, hadded⟩ := bind_eq_ok.1 (stored_eq_ok.1 hadded)
  cases hadded
  exact h.of_same rfl rfl

theorem cards {expansion : Value} {cards : List Value} {i : Intake}
    (hcards : ∀ c ∈ cards, c.isPlainCard = true) (h : t.Agrees)
    (hintake : t.addCards expansion cards = .ok i) : i.tables.Agrees := by
  induction cards generalizing t i with
  | nil =>
    cases hintake
    exact h
  | cons c rest ih =>
    obtain ⟨hc, hrest⟩ := List.forall_mem_cons.1 hcards
    unfold addCards at hintake
    obtain ⟨⟨mid, isNew⟩, hmid, hintake⟩ := bind_eq_ok.1 hintake
    obtain ⟨faces, -, hintake⟩ := bind_eq_ok.1 hintake
    obtain ⟨later, hlater, hintake⟩ := bind_eq_ok.1 hintake
    unfold addCardData at hmid
    obtain ⟨name, hname, hmid⟩ := bind_eq_ok.1 hmid
    obtain rfl := name_eq hc (shaped_eq_ok.1 hname)
    obtain ⟨row, hrow, hmid⟩ := bind_eq_ok.1 hmid
    have hall := ih hrest ((h.cardRow hc hrow).printingRow hmid) hlater
    cases hintake
    exact hall

theorem of_ofCards (h : t.Agrees) (hsame : t'.ofCards = t.ofCards) : t'.Agrees :=
  h.of_same (cards_of_ofCards hsame) (beside_of_ofCards hsame).1

/-- A set of plain cards. -/
theorem set {name set : Value} {n : Nat} (hset : set.isPlainSet = true) (h : t.Agrees)
    (hadded : t.addSet name set = .ok (t', n)) : t'.Agrees := by
  unfold addSet at hadded
  obtain ⟨t₁, h₁, hadded⟩ := bind_eq_ok.1 hadded
  obtain ⟨v, hv, hadded⟩ := bind_eq_ok.1 hadded
  obtain ⟨listed, hlisted, hadded⟩ := bind_eq_ok.1 hadded
  obtain ⟨intake, hintake, hadded⟩ := bind_eq_ok.1 hadded
  obtain ⟨t₂, h₂, hadded⟩ := bind_eq_ok.1 hadded
  cases hadded
  have hplain := isPlainCard_of_isPlainSet hset (shaped_eq_ok.1 hv) (shaped_eq_ok.1 hlisted)
  have hcards := (h.of_ofCards (addSetRow_ofCards h₁)).cards hplain hintake
  exact hcards.of_ofCards (addAllFaces_ofCards h₂)

end Tables.Agrees

/-- Any sets of plain cards, of which some may be refused. -/
theorem Database.agrees_afterSets {sets : List Value}
    (hsets : ∀ set ∈ sets, set.isPlainSet = true) (db : Database) (h : db.tables.Agrees) :
    (db.afterSets sets).tables.Agrees := by
  induction sets generalizing db with
  | nil => exact h
  | cons set rest ih =>
    obtain ⟨hset, hrest⟩ := List.forall_mem_cons.1 hsets
    refine ih hrest (db.insertSet set).1 ?_
    rcases db.insertSet_cases set with hsame | ⟨name, n, t, -, hadded, hsame⟩
    · rw [hsame]
      exact h
    · rw [hsame]
      exact h.set hset hadded

/-! ## Keys and references -/

/-- Every row is the first one of its key, so there is no other of that key. -/
def FirstOfKey {ρ : Type} (key : ρ → Option String) (rows : List ρ) : Prop :=
  ∀ r ∈ rows, ∀ n, key r = some n → (rows.find? fun x => key x == some n) = some r

theorem FirstOfKey.append {ρ : Type} {key : ρ → Option String} {rows : List ρ} {r : ρ}
    (h : FirstOfKey key rows) (hnew : rows.any (fun b => sameKey (key r) (key b)) = false) :
    FirstOfKey key (rows ++ [r]) := by
  intro x hx n hn
  rw [Tables.find?_append_of_key key]
  rcases List.mem_append.1 hx with hx | hx
  · rw [h x hx n hn, Option.some_or]
  · obtain rfl := List.mem_singleton.1 hx
    -- an earlier row of this key would have clashed
    have hnone : (rows.find? fun b => key b == some n) = none := by
      refine List.find?_eq_none.2 fun b hb hkey => List.any_eq_false.1 hnew b hb ?_
      simp [sameKey, hn, beq_iff_eq.1 hkey]
    rw [hnone, if_pos hn, Option.none_or]

/-- No two cards have one name, no card has two rows of one kind of statistics, and printings
and blocks are of cards and sets that are there. -/
structure Tables.Keyed (t : Tables) : Prop where
  cards : FirstOfKey CardRow.name t.cards
  powers : FirstOfKey PowerRow.card t.powers
  loyalties : FirstOfKey LoyaltyRow.card t.loyalties
  printings : ∀ p ∈ t.printings, t.hasCard p.card = true ∧ t.hasExpansion p.expansion = true
  blocks : ∀ b ∈ t.blocks, t.hasExpansion b.expansion = true

namespace Tables.Keyed

variable {t t' : Tables}

theorem empty : Tables.empty.Keyed where
  cards _ hr := nomatch hr
  powers _ hr := nomatch hr
  loyalties _ hr := nomatch hr
  printings _ hp := nomatch hp
  blocks _ hb := nomatch hb

theorem hasCard_mono (h : t.Extends t') {name : String} (hcard : t.hasCard name = true) :
    t'.hasCard name = true := by
  obtain ⟨c, hc, hname⟩ := List.any_eq_true.1 hcard
  exact List.any_eq_true.2 ⟨c, h.cards.subset hc, hname⟩

theorem hasExpansion_mono (h : t.Extends t') {name : String}
    (hset : t.hasExpansion name = true) : t'.hasExpansion name = true := by
  obtain ⟨e, he, hname⟩ := List.any_eq_true.1 hset
  exact List.any_eq_true.2 ⟨e, h.expansions.subset he, hname⟩

theorem insertion (h : t.Keyed) (hstep : Insertion t t') : t'.Keyed := by
  have hextends := Extends.of_insertion hstep
  -- what was referred to is still there
  have hprintings : ∀ p ∈ t.printings,
      t'.hasCard p.card = true ∧ t'.hasExpansion p.expansion = true := fun p hp =>
    ⟨hasCard_mono hextends (h.printings p hp).1, hasExpansion_mono hextends (h.printings p hp).2⟩
  have hblocks : ∀ b ∈ t.blocks, t'.hasExpansion b.expansion = true := fun b hb =>
    hasExpansion_mono hextends (h.blocks b hb)
  cases hstep with
  | card r hnew => exact ⟨h.cards.append hnew, h.powers, h.loyalties, hprintings, hblocks⟩
  | power r hnew _ => exact ⟨h.cards, h.powers.append hnew, h.loyalties, hprintings, hblocks⟩
  | loyalty r hnew _ => exact ⟨h.cards, h.powers, h.loyalties.append hnew, hprintings, hblocks⟩
  | block r _ hset =>
    exact ⟨h.cards, h.powers, h.loyalties, hprintings,
      List.forall_mem_append.2 ⟨hblocks, List.forall_mem_singleton.2 hset⟩⟩
  | printing r _ hcard hset =>
    exact ⟨h.cards, h.powers, h.loyalties,
      List.forall_mem_append.2 ⟨hprintings, List.forall_mem_singleton.2 ⟨hcard, hset⟩⟩, hblocks⟩
  | label s r _ _ => cases s <;> exact ⟨h.cards, h.powers, h.loyalties, hprintings, hblocks⟩
  | mana r _ _ => exact ⟨h.cards, h.powers, h.loyalties, hprintings, hblocks⟩
  | expansion r _ => exact ⟨h.cards, h.powers, h.loyalties, hprintings, hblocks⟩
  | pair r _ _ => exact ⟨h.cards, h.powers, h.loyalties, hprintings, hblocks⟩
  | triple r _ _ => exact ⟨h.cards, h.powers, h.loyalties, hprintings, hblocks⟩

end Tables.Keyed

namespace Database

/-- Sets only insert rows, and leave the tables as they are if they are refused. -/
theorem grows_afterSets (db : Database) (sets : List Value) :
    db.tables.Grows (db.afterSets sets).tables := by
  induction sets generalizing db with
  | nil => exact Tables.Grows.refl _
  | cons set rest ih =>
    refine Tables.Grows.trans ?_ (ih (db.insertSet set).1)
    rcases db.insertSet_cases set with hsame | ⟨name, n, t, -, hadded, hsame⟩
    · rw [hsame]
      exact Tables.Grows.refl _
    · rw [hsame]
      exact Tables.addSet_grows hadded

end Database

/-! ## Rows -/

/-- The rows of a card, in all tables, agree with each other. -/
structure Tables.Describes (t : Tables) (r : CardRow) (name : String) : Prop where
  named : r.name = some name
  mana : ∃ counts, parseManaCost r.manaCost = .ok counts ∧
    (t.mana.filter fun m => m.card == name) = counts.map fun q => ⟨name, q.1, (q.2 : Int)⟩
  amounts : ∀ m ∈ t.mana, m.card = name → 1 ≤ m.quantity
  color : ∃ l ∈ t.colors, l.card = name
  colorIdentity : ∃ l ∈ t.colorIdentities, l.card = name
  power : ∀ p ∈ t.powers, p.card = some name →
    p.powerValue = Text.leadingInteger p.power.toList ∧
      p.toughnessValue = Text.leadingInteger p.toughness.toList
  loyalty : ∀ l ∈ t.loyalties, l.card = some name →
    l.value = Text.leadingInteger l.loyalty.toList
  statistics : (∀ p ∈ t.powers, p.card ≠ some name) ∨ ∀ l ∈ t.loyalties, l.card ≠ some name

/-- Each card is described by rows that agree with each other, and printings and blocks are of
cards and sets that are there. -/
structure Tables.Coherent (t : Tables) : Prop where
  cards : ∀ r ∈ t.cards, ∃ name, t.Describes r name
  printings : ∀ p ∈ t.printings, t.hasCard p.card = true ∧ t.hasExpansion p.expansion = true
  blocks : ∀ b ∈ t.blocks, t.hasExpansion b.expansion = true

namespace Tables

variable {t t' : Tables}

theorem Agrees.describes (h : t.Agrees) (hkeyed : t.Keyed) {r : CardRow} (hr : r ∈ t.cards) :
    ∃ name, t.Describes r name := by
  obtain ⟨name, hname⟩ := Option.ne_none_iff_exists'.1 (h.named r hr)
  have hagrees := h.known name r (hkeyed.cards r hr name hname)
  have hlabel : ∀ s, (t.profile name).labels s ≠ [] → ∃ l ∈ t.side s, l.card = name := by
    intro s hs
    obtain ⟨l, hl⟩ := List.exists_mem_of_ne_nil _ hs
    obtain ⟨row, hrow, -⟩ := List.mem_map.1 hl
    obtain ⟨hmem, hcard⟩ := List.mem_filter.1 hrow
    exact ⟨row, hmem, beq_iff_eq.1 hcard⟩
  -- the one row of a key is the one that the profile has
  have hpower : ∀ p ∈ t.powers, p.card = some name → (t.profile name).power = some p :=
    fun p hp hcard => hkeyed.powers p hp name hcard
  have hloyalty : ∀ l ∈ t.loyalties, l.card = some name → (t.profile name).loyalty = some l :=
    fun l hl hcard => hkeyed.loyalties l hl name hcard
  obtain ⟨counts, hcounts, hmana⟩ := hagrees.mana
  have hrows : (t.mana.filter fun m => m.card == name) =
      counts.map fun q => ⟨name, q.1, (q.2 : Int)⟩ := by
    have hback : ∀ m ∈ t.mana.filter (fun m => m.card == name),
        (⟨name, m.symbol, m.quantity⟩ : ManaRow) = m := by
      intro m hm
      rw [← beq_iff_eq.1 (List.mem_filter.1 hm).2]
    calc t.mana.filter (fun m => m.card == name)
      _ = (t.mana.filter fun m => m.card == name).map fun m => ⟨name, m.symbol, m.quantity⟩ := by
        rw [List.map_congr_left hback, List.map_id']
      _ = (t.profile name).mana.map fun q => ⟨name, q.1, q.2⟩ := by rw [profile, List.map_map]; rfl
      _ = counts.map fun q => ⟨name, q.1, (q.2 : Int)⟩ := by rw [hmana, List.map_map]; rfl
  refine ⟨name, hname, ⟨counts, hcounts, hrows⟩, ?_, hlabel .color hagrees.color,
    hlabel .colorIdentity hagrees.colorIdentity, ?_, ?_, ?_⟩
  · intro m hm hcard
    have hmem : m ∈ t.mana.filter fun m => m.card == name :=
      List.mem_filter.2 ⟨hm, beq_iff_eq.2 hcard⟩
    rw [hrows] at hmem
    obtain ⟨q, hq, rfl⟩ := List.mem_map.1 hmem
    have hone := one_le_parseManaCost hcounts q hq
    change (1 : Int) ≤ q.2
    omega
  · exact fun p hp hcard => hagrees.power p (hpower p hp hcard)
  · exact fun l hl hcard => hagrees.loyalty l (hloyalty l hl hcard)
  · refine hagrees.statistics.imp (fun hnone p hp hcard => ?_) fun hnone l hl hcard => ?_
    · rw [hpower p hp hcard] at hnone
      cases hnone
    · rw [hloyalty l hl hcard] at hnone
      cases hnone

theorem recordsOf_prefix {ls ls' : List (String × List Record)}
    (h : List.Forall₂ (fun a b => a.1 = b.1 ∧ a.2 <+: b.2) ls ls') (name : String) :
    recordsOf ls name <+: recordsOf ls' name := by
  induction h with
  | nil => exact List.prefix_rfl
  | @cons a b _ _ hab _ ih =>
    obtain ⟨hname, hrecords⟩ := hab
    rw [recordsOf, recordsOf, List.find?_cons, List.find?_cons, ← hname]
    cases a.1 == name with
    | true => exact hrecords
    | false => exact ih

/-- Every table, by its name, begins with the records that it had. -/
theorem Extends.relations (h : t.Extends t') (name : String) :
    t.relations name <+: t'.relations name := by
  refine recordsOf_prefix ?_ name
  exact .cons ⟨rfl, h.cards.map _⟩ <| .cons ⟨rfl, (h.side .color).map _⟩ <|
    .cons ⟨rfl, (h.side .colorIdentity).map _⟩ <| .cons ⟨rfl, (h.side .supertype).map _⟩ <|
    .cons ⟨rfl, (h.side .type).map _⟩ <| .cons ⟨rfl, (h.side .subtype).map _⟩ <|
    .cons ⟨rfl, h.mana.map _⟩ <| .cons ⟨rfl, h.powers.map _⟩ <|
    .cons ⟨rfl, h.loyalties.map _⟩ <| .cons ⟨rfl, h.expansions.map _⟩ <|
    .cons ⟨rfl, h.blocks.map _⟩ <| .cons ⟨rfl, h.printings.map _⟩ <|
    .cons ⟨rfl, h.pairs.map _⟩ <| .cons ⟨rfl, h.triples.map _⟩ <|
    .cons ⟨rfl, h.decks.map _⟩ <| .cons ⟨rfl, h.instances.map _⟩ <|
    .cons ⟨rfl, h.categories.map _⟩ <| .cons ⟨rfl, h.quantities.map _⟩ <|
    .cons ⟨rfl, h.members.map _⟩ .nil

end Tables

/-- After any sets of plain cards, of which some may be refused, the rows of each card agree:
its amounts of mana are those of its cost, each at least one; it has a color and a color
identity; it does not have both power and loyalty, and the numbers beside these are those of
the texts. Printings and blocks are of cards and sets that are there. And whatever sets come
later, every table keeps its rows as they are. -/
theorem coherent_afterSets {sets : List Value} (hsets : ∀ set ∈ sets, set.isPlainSet = true) :
    (Database.empty.afterSets sets).tables.Coherent ∧
      ∀ later name, (Database.empty.afterSets sets).tables.relations name <+:
        ((Database.empty.afterSets sets).afterSets later).tables.relations name := by
  have hagrees := Database.agrees_afterSets hsets .empty .empty
  have hkeyed : (Database.empty.afterSets sets).tables.Keyed :=
    (Database.empty.grows_afterSets sets).preserves (fun _ _ hstep h => h.insertion hstep) .empty
  refine ⟨⟨fun r hr => hagrees.describes hkeyed hr, hkeyed.printings, hkeyed.blocks⟩, ?_⟩
  intro later name
  exact (Database.grows_afterSets _ later).extends.relations name

/-- A set of one card that has everything: two types, a cost, colors and a printed power. -/
def wholeSet : Value :=
  .object [("name", .text "Mirage"), ("code", .text "MIR"), ("releaseDate", .text "1996-10-08"),
    ("block", .text "Mirage"), ("cards", .list [
      .object [("name", .text "Asmira"), ("manaCost", .text "\x7b2\x7d\x7bG\x7d\x7bW\x7d"),
        ("power", .text "2+*"), ("toughness", .text "2"), ("loyalty", .text "3"),
        ("colors", .list [.text "G", .text "W"]), ("number", .int 210), ("rarity", .text "rare"),
        ("types", .list [.text "Creature"])]])]

theorem wholeSet_coherent :
    (∀ set ∈ [wholeSet], set.isPlainSet = true) ∧
      (Database.empty.afterSets [wholeSet]).tables.cards.length = 1 ∧
      (Database.empty.afterSets [wholeSet]).tables.Coherent := by
  have hsets : ∀ set ∈ [wholeSet], set.isPlainSet = true := by decide +kernel
  exact ⟨hsets, by decide +kernel, (coherent_afterSets hsets).1⟩

end CardArchive
