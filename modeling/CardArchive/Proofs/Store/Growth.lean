import CardArchive.Proofs.Outcome
import CardArchive.Store.Ingest

/-!
# How taking in a set changes the tables

Taking in a set only ever adds rows at the end of tables, one at a time. Each row that
is added repeats no key of its table and names only cards and sets that are there. What
holds of the empty tables and survives one such insertion therefore holds after any
number of sets.

## What this module delivers

* `Insertion`: one row added to one table, with what is known of it.
* `Grows`: any number of insertions.
* `Extends`: every table begins with the rows that it had, as it does after insertions.
* `addSet_grows`: a set that is taken in is a number of insertions.
-/

set_option autoImplicit false

namespace CardArchive

namespace Tables

/-! ## One insertion -/

/-- The tables with one more row in one of the tables of cards. The row repeats no key and
names only what is there. -/
inductive Insertion (t : Tables) : Tables → Prop
  | card (r : CardRow) (hnew : t.cards.any (fun c => sameKey r.name c.name) = false) :
      Insertion t { t with cards := t.cards ++ [r] }
  | label (s : Side) (r : LabelRow) (hnew : (t.side s).any (fun b => r == b) = false)
      (hcard : t.hasCard r.card = true) : Insertion t (t.setSide s (t.side s ++ [r]))
  | mana (r : ManaRow)
      (hnew : t.mana.any (fun b => r.card == b.card && r.symbol == b.symbol) = false)
      (hcard : t.hasCard r.card = true) : Insertion t { t with mana := t.mana ++ [r] }
  | power (r : PowerRow) (hnew : t.powers.any (fun b => sameKey r.card b.card) = false)
      (hcard : t.refersToCard r.card = true) : Insertion t { t with powers := t.powers ++ [r] }
  | loyalty (r : LoyaltyRow) (hnew : t.loyalties.any (fun b => sameKey r.card b.card) = false)
      (hcard : t.refersToCard r.card = true) :
      Insertion t { t with loyalties := t.loyalties ++ [r] }
  | expansion (r : ExpansionRow)
      (hnew : t.expansions.any (fun b => sameKey r.name b.name || r.code == b.code) = false) :
      Insertion t { t with expansions := t.expansions ++ [r] }
  | block (r : BlockRow) (hnew : t.blocks.any (fun b => r == b) = false)
      (hset : t.hasExpansion r.expansion = true) : Insertion t { t with blocks := t.blocks ++ [r] }
  | printing (r : PrintingRow)
      (hnew : t.printings.any (fun b =>
        r.card == b.card && r.expansion == b.expansion && r.number == b.number) = false)
      (hcard : t.hasCard r.card = true) (hset : t.hasExpansion r.expansion = true) :
      Insertion t { t with printings := t.printings ++ [r] }
  | pair (r : PairRow)
      (hnew : t.pairs.any (fun b => r.first == b.first && r.second == b.second) = false)
      (hcards : (t.hasCard r.first && t.hasCard r.second) = true) :
      Insertion t { t with pairs := t.pairs ++ [r] }
  | triple (r : TripleRow)
      (hnew : t.triples.any (fun b =>
        r.first == b.first && r.second == b.second && r.third == b.third) = false)
      (hcards : (t.hasCard r.first && t.hasCard r.second && t.hasCard r.third) = true) :
      Insertion t { t with triples := t.triples ++ [r] }

/-- Any number of insertions. -/
def Grows : Tables → Tables → Prop := Relation.ReflTransGen Insertion

theorem Grows.refl (t : Tables) : Grows t t := Relation.ReflTransGen.refl

theorem Grows.single {t t' : Tables} (h : Insertion t t') : Grows t t' :=
  Relation.ReflTransGen.single h

theorem Grows.trans {t t' t'' : Tables} (h : Grows t t') (h' : Grows t' t'') : Grows t t'' :=
  Relation.ReflTransGen.trans h h'

/-- What survives one insertion survives any number of them. -/
theorem Grows.preserves {P : Tables → Prop} (hP : ∀ t t', Insertion t t' → P t → P t')
    {t t' : Tables} (h : Grows t t') (ht : P t) : P t' := by
  induction h with
  | refl => exact ht
  | tail _ hstep ih => exact hP _ _ hstep ih

/-! ## Rows stay -/

/-- Every table still begins with the rows that it had. -/
structure Extends (t t' : Tables) : Prop where
  cards : t.cards <+: t'.cards
  side : ∀ s, t.side s <+: t'.side s
  mana : t.mana <+: t'.mana
  powers : t.powers <+: t'.powers
  loyalties : t.loyalties <+: t'.loyalties
  expansions : t.expansions <+: t'.expansions
  blocks : t.blocks <+: t'.blocks
  printings : t.printings <+: t'.printings
  pairs : t.pairs <+: t'.pairs
  triples : t.triples <+: t'.triples
  decks : t.decks <+: t'.decks
  instances : t.instances <+: t'.instances
  categories : t.categories <+: t'.categories
  quantities : t.quantities <+: t'.quantities
  members : t.members <+: t'.members

theorem Extends.refl (t : Tables) : Extends t t := by
  constructor
  case side => exact fun _ => List.prefix_rfl
  all_goals exact List.prefix_rfl

theorem Extends.trans {t t' t'' : Tables} (h : Extends t t') (h' : Extends t' t'') :
    Extends t t'' where
  cards := h.cards.trans h'.cards
  side s := (h.side s).trans (h'.side s)
  mana := h.mana.trans h'.mana
  powers := h.powers.trans h'.powers
  loyalties := h.loyalties.trans h'.loyalties
  expansions := h.expansions.trans h'.expansions
  blocks := h.blocks.trans h'.blocks
  printings := h.printings.trans h'.printings
  pairs := h.pairs.trans h'.pairs
  triples := h.triples.trans h'.triples
  decks := h.decks.trans h'.decks
  instances := h.instances.trans h'.instances
  categories := h.categories.trans h'.categories
  quantities := h.quantities.trans h'.quantities
  members := h.members.trans h'.members

/-- A row is inserted behind the others of its table. -/
theorem Extends.of_insertion {t t' : Tables} (h : Insertion t t') : Extends t t' := by
  cases h with
  | label s r _ _ =>
    have hside : ∀ other, t.side other <+: (t.setSide s (t.side s ++ [r])).side other := by
      intro other
      by_cases hother : other = s
      · subst hother
        rw [side_setSide_self]
        exact List.prefix_append _ _
      · rw [side_setSide_ne hother]
    cases s <;> exact { Extends.refl t with side := hside }
  | card r _ => exact { Extends.refl t with cards := List.prefix_append _ _ }
  | mana r _ _ => exact { Extends.refl t with mana := List.prefix_append _ _ }
  | power r _ _ => exact { Extends.refl t with powers := List.prefix_append _ _ }
  | loyalty r _ _ => exact { Extends.refl t with loyalties := List.prefix_append _ _ }
  | expansion r _ => exact { Extends.refl t with expansions := List.prefix_append _ _ }
  | block r _ _ => exact { Extends.refl t with blocks := List.prefix_append _ _ }
  | printing r _ _ _ => exact { Extends.refl t with printings := List.prefix_append _ _ }
  | pair r _ _ => exact { Extends.refl t with pairs := List.prefix_append _ _ }
  | triple r _ _ => exact { Extends.refl t with triples := List.prefix_append _ _ }

theorem Grows.extends {t t' : Tables} (h : Grows t t') : Extends t t' :=
  h.preserves (P := fun t' => Extends t t') (fun _ _ hstep ht => ht.trans (.of_insertion hstep))
    (.refl t)

/-! ## One row after the other -/

/-- Where a row is inserted or skipped, the tables grow by one insertion or by none. -/
theorem grows_of_insertOrSkip {ρ : Type} {clash : ρ → ρ → Bool} {refers : ρ → Bool}
    {row : Option ρ} {rows result : List ρ} {isNew : Bool} {t : Tables} (put : List ρ → Tables)
    (h : insertOrSkip clash refers row rows = .ok (result, isNew)) (hput : put rows = t)
    (hone : ∀ r, rows.any (clash r) = false → refers r = true →
      Insertion t (put (rows ++ [r]))) : Grows t (put result) := by
  rcases insertOrSkip_eq_ok h with ⟨-, rfl⟩ | ⟨-, r, -, hrefers, hnew, rfl⟩
  · rw [hput]
    exact Grows.refl t
  · exact Grows.single (hone r hnew hrefers)

theorem addCard_grows {t t' : Tables} {name text : Option String} {cmc : Int}
    {manaCost : Option String} {isNew : Bool}
    (h : t.addCard name text cmc manaCost = .ok (t', isNew)) : Grows t t' := by
  unfold addCard at h
  obtain ⟨⟨rows, new⟩, hrows, h⟩ := bind_eq_ok.1 h
  cases h
  exact grows_of_insertOrSkip (fun rows => { t with cards := rows }) hrows rfl
    fun r hnew _ => .card r hnew

theorem addLabel_grows {t t' : Tables} {s : Side} {card label : Option String}
    (h : t.addLabel s card label = .ok t') : Grows t t' := by
  unfold addLabel at h
  obtain ⟨⟨rows, new⟩, hrows, h⟩ := bind_eq_ok.1 h
  cases h
  have hsame : t.setSide s (t.side s) = t := by cases s <;> rfl
  exact grows_of_insertOrSkip (t.setSide s) hrows hsame (.label s)

theorem addMana_grows {t t' : Tables} {card : Option String} {symbol : String} {quantity : Int}
    (h : t.addMana card symbol quantity = .ok t') : Grows t t' := by
  unfold addMana at h
  obtain ⟨⟨rows, new⟩, hrows, h⟩ := bind_eq_ok.1 h
  cases h
  exact grows_of_insertOrSkip (fun rows => { t with mana := rows }) hrows rfl .mana

theorem addPower_grows {t t' : Tables} {row : PowerRow} (h : t.addPower row = .ok t') :
    Grows t t' := by
  unfold addPower at h
  obtain ⟨⟨rows, new⟩, hrows, h⟩ := bind_eq_ok.1 h
  cases h
  exact grows_of_insertOrSkip (fun rows => { t with powers := rows }) hrows rfl .power

theorem addLoyalty_grows {t t' : Tables} {row : LoyaltyRow} (h : t.addLoyalty row = .ok t') :
    Grows t t' := by
  unfold addLoyalty at h
  obtain ⟨⟨rows, new⟩, hrows, h⟩ := bind_eq_ok.1 h
  cases h
  exact grows_of_insertOrSkip (fun rows => { t with loyalties := rows }) hrows rfl .loyalty

theorem addExpansion_grows {t t' : Tables} {name code : Option String} {size : Int}
    {released : Option String} (h : t.addExpansion name code size released = .ok t') :
    Grows t t' := by
  unfold addExpansion at h
  obtain ⟨⟨rows, new⟩, hrows, h⟩ := bind_eq_ok.1 h
  cases h
  exact grows_of_insertOrSkip (fun rows => { t with expansions := rows }) hrows rfl
    fun r hnew _ => .expansion r hnew

theorem addBlock_grows {t t' : Tables} {expansion block : Option String}
    (h : t.addBlock expansion block = .ok t') : Grows t t' := by
  unfold addBlock at h
  obtain ⟨⟨rows, new⟩, hrows, h⟩ := bind_eq_ok.1 h
  cases h
  exact grows_of_insertOrSkip (fun rows => { t with blocks := rows }) hrows rfl .block

theorem addPrinting_grows {t t' : Tables}
    {card expansion number rarity flavor artist : Option String} {isNew : Bool}
    (h : t.addPrinting card expansion number rarity flavor artist = .ok (t', isNew)) :
    Grows t t' := by
  unfold addPrinting at h
  obtain ⟨⟨rows, new⟩, hrows, h⟩ := bind_eq_ok.1 h
  cases h
  apply grows_of_insertOrSkip (fun rows => { t with printings := rows }) hrows rfl
  intro r hnew hrefers
  obtain ⟨hcard, hset⟩ := Bool.and_eq_true_iff.1 hrefers
  exact .printing r hnew hcard hset

theorem addPair_grows {t t' : Tables} {first second layout : Option String} {total : Int}
    (h : t.addPair first second layout total = .ok t') : Grows t t' := by
  unfold addPair at h
  obtain ⟨⟨rows, new⟩, hrows, h⟩ := bind_eq_ok.1 h
  cases h
  exact grows_of_insertOrSkip (fun rows => { t with pairs := rows }) hrows rfl .pair

theorem addTriple_grows {t t' : Tables} {first second third layout : Option String} {total : Int}
    (h : t.addTriple first second third layout total = .ok t') : Grows t t' := by
  unfold addTriple at h
  obtain ⟨⟨rows, new⟩, hrows, h⟩ := bind_eq_ok.1 h
  cases h
  exact grows_of_insertOrSkip (fun rows => { t with triples := rows }) hrows rfl .triple

/-! ## The details of a card -/

theorem addLabels_grows {s : Side} {card : Option String} {vs : List Value} {t t' : Tables}
    (h : t.addLabels s card vs = .ok t') : Grows t t' := by
  induction vs generalizing t with
  | nil =>
    cases h
    exact Grows.refl _
  | cons v vs ih =>
    unfold addLabels at h
    obtain ⟨label, -, h⟩ := bind_eq_ok.1 h
    obtain ⟨mid, hmid, h⟩ := bind_eq_ok.1 h
    exact (addLabel_grows hmid).trans (ih h)

theorem addLabelField_grows {t t' : Tables} {s : Side} {name : Option String} {card : Value}
    {field : String} {fallback : List Value}
    (h : t.addLabelField s name card field fallback = .ok t') : Grows t t' := by
  unfold addLabelField at h
  obtain ⟨labels, -, h⟩ := bind_eq_ok.1 h
  exact addLabels_grows (stored_eq_ok.1 h)

theorem addAmounts_grows {card : Option String} {amounts : Counts} {t t' : Tables}
    (h : t.addAmounts card amounts = .ok t') : Grows t t' := by
  induction amounts generalizing t with
  | nil =>
    cases h
    exact Grows.refl _
  | cons amount rest ih =>
    obtain ⟨symbol, n⟩ := amount
    unfold addAmounts at h
    obtain ⟨quantity, -, h⟩ := bind_eq_ok.1 h
    obtain ⟨mid, hmid, h⟩ := bind_eq_ok.1 h
    exact (addMana_grows hmid).trans (ih h)

theorem addPowerField_grows {t t' : Tables} {name : Option String} {power toughness : Value}
    (h : t.addPowerField name power toughness = .ok t') : Grows t t' := by
  unfold addPowerField at h
  obtain ⟨_, -, h⟩ := bind_eq_ok.1 h
  obtain ⟨_, -, h⟩ := bind_eq_ok.1 h
  obtain ⟨_, -, h⟩ := bind_eq_ok.1 h
  obtain ⟨_, -, h⟩ := bind_eq_ok.1 h
  exact addPower_grows (stored_eq_ok.1 h)

theorem addLoyaltyField_grows {t t' : Tables} {name : Option String} {loyalty : Value}
    (h : t.addLoyaltyField name loyalty = .ok t') : Grows t t' := by
  unfold addLoyaltyField at h
  obtain ⟨_, -, h⟩ := bind_eq_ok.1 h
  obtain ⟨_, -, h⟩ := bind_eq_ok.1 h
  exact addLoyalty_grows (stored_eq_ok.1 h)

theorem addStatistics_grows {t t' : Tables} {name : Option String} {card : Value}
    (h : t.addStatistics name card = .ok t') : Grows t t' := by
  unfold addStatistics at h
  obtain ⟨_, -, h⟩ := bind_eq_ok.1 h
  obtain ⟨_, -, h⟩ := bind_eq_ok.1 h
  obtain ⟨_, -, h⟩ := bind_eq_ok.1 h
  split at h
  · exact addPowerField_grows h
  · split at h
    · exact addLoyaltyField_grows h
    · cases h
      exact Grows.refl t

theorem addDetails_grows {t t' : Tables} {name : Option String} {card : Value}
    (h : t.addDetails name card = .ok t') : Grows t t' := by
  unfold addDetails at h
  obtain ⟨t₁, h₁, h⟩ := bind_eq_ok.1 h
  obtain ⟨t₂, h₂, h⟩ := bind_eq_ok.1 h
  obtain ⟨t₃, h₃, h⟩ := bind_eq_ok.1 h
  obtain ⟨t₄, h₄, h⟩ := bind_eq_ok.1 h
  obtain ⟨t₅, h₅, h⟩ := bind_eq_ok.1 h
  obtain ⟨_, -, h⟩ := bind_eq_ok.1 h
  obtain ⟨_, -, h⟩ := bind_eq_ok.1 h
  obtain ⟨t₆, h₆, h⟩ := bind_eq_ok.1 h
  -- five fields of labels, then the amounts, then the statistics
  have hlabels : Grows t t₅ := (addLabelField_grows h₁).trans <| (addLabelField_grows h₂).trans <|
    (addLabelField_grows h₃).trans <| (addLabelField_grows h₄).trans (addLabelField_grows h₅)
  exact hlabels.trans ((addAmounts_grows (stored_eq_ok.1 h₆)).trans (addStatistics_grows h))

/-! ## Cards, groups of faces and sets -/

theorem addCardRow_grows {t t' : Tables} {name card : Value}
    (h : t.addCardRow name card = .ok t') : Grows t t' := by
  unfold addCardRow at h
  obtain ⟨_, -, h⟩ := bind_eq_ok.1 h
  obtain ⟨_, -, h⟩ := bind_eq_ok.1 h
  obtain ⟨_, -, h⟩ := bind_eq_ok.1 h
  obtain ⟨_, -, h⟩ := bind_eq_ok.1 h
  obtain ⟨_, -, h⟩ := bind_eq_ok.1 h
  obtain ⟨_, -, h⟩ := bind_eq_ok.1 h
  obtain ⟨_, -, h⟩ := bind_eq_ok.1 h
  obtain ⟨⟨mid, isNew⟩, hmid, h⟩ := bind_eq_ok.1 h
  -- only a card that is new has its details added
  have hcard := addCard_grows (stored_eq_ok.1 hmid)
  cases isNew with
  | true => exact hcard.trans (addDetails_grows h)
  | false =>
    cases h
    exact hcard

theorem addPrintingRow_grows {t t' : Tables} {expansion name card : Value} {isNew : Bool}
    (h : t.addPrintingRow expansion name card = .ok (t', isNew)) : Grows t t' := by
  unfold addPrintingRow at h
  obtain ⟨_, -, h⟩ := bind_eq_ok.1 h
  obtain ⟨_, -, h⟩ := bind_eq_ok.1 h
  obtain ⟨-, h⟩ := refuse_eq_ok.1 h
  obtain ⟨_, -, h⟩ := bind_eq_ok.1 h
  obtain ⟨_, -, h⟩ := bind_eq_ok.1 h
  obtain ⟨_, -, h⟩ := bind_eq_ok.1 h
  obtain ⟨_, -, h⟩ := bind_eq_ok.1 h
  obtain ⟨_, -, h⟩ := bind_eq_ok.1 h
  obtain ⟨_, -, h⟩ := bind_eq_ok.1 h
  obtain ⟨_, -, h⟩ := bind_eq_ok.1 h
  exact addPrinting_grows (stored_eq_ok.1 h)

theorem addCardData_grows {t t' : Tables} {expansion card : Value} {isNew : Bool}
    (h : t.addCardData expansion card = .ok (t', isNew)) : Grows t t' := by
  unfold addCardData at h
  obtain ⟨name, -, h⟩ := bind_eq_ok.1 h
  obtain ⟨mid, hmid, h⟩ := bind_eq_ok.1 h
  exact (addCardRow_grows hmid).trans (addPrintingRow_grows h)

theorem addGroup_grows {t t' : Tables} {names : List (Option String)} {layout : Option String}
    {total : Int} (h : t.addGroup names layout total = .ok t') : Grows t t' := by
  unfold addGroup at h
  split at h
  · exact addPair_grows h
  · exact addTriple_grows h
  · cases h
    exact Grows.refl t

theorem addFaces_grows {t t' : Tables} {card : Value} {names : List Value}
    (h : t.addFaces card names = .ok t') : Grows t t' := by
  unfold addFaces at h
  -- the checks of the group change nothing; only its row does
  obtain ⟨layout, -, h⟩ := bind_eq_ok.1 h
  obtain ⟨name, -, h⟩ := bind_eq_ok.1 h
  obtain ⟨-, h⟩ := refuse_eq_ok.1 h
  obtain ⟨-, h⟩ := refuse_eq_ok.1 h
  obtain ⟨faces, -, h⟩ := bind_eq_ok.1 h
  obtain ⟨-, h⟩ := refuse_eq_ok.1 h
  split at h
  · cases h
    exact Grows.refl t
  · obtain ⟨_, -, h⟩ := bind_eq_ok.1 h
    exact addGroup_grows (stored_eq_ok.1 h)

theorem addAllFaces_grows {groups : List (Value × List Value)} {t t' : Tables}
    (h : t.addAllFaces groups = .ok t') : Grows t t' := by
  induction groups generalizing t with
  | nil =>
    cases h
    exact Grows.refl _
  | cons group rest ih =>
    obtain ⟨card, names⟩ := group
    unfold addAllFaces at h
    obtain ⟨mid, hmid, h⟩ := bind_eq_ok.1 h
    exact (addFaces_grows hmid).trans (ih h)

theorem addCards_grows {expansion : Value} {cards : List Value} {t : Tables} {i : Intake}
    (h : t.addCards expansion cards = .ok i) : Grows t i.tables := by
  induction cards generalizing t i with
  | nil =>
    cases h
    exact Grows.refl _
  | cons card rest ih =>
    unfold addCards at h
    obtain ⟨⟨mid, isNew⟩, hmid, h⟩ := bind_eq_ok.1 h
    obtain ⟨faces, -, h⟩ := bind_eq_ok.1 h
    obtain ⟨later, hlater, h⟩ := bind_eq_ok.1 h
    -- the rest of the cards is added to what this one has left
    have hrest : Grows mid later.tables := ih hlater
    cases h
    exact (addCardData_grows hmid).trans hrest

theorem addSetRow_grows {t t' : Tables} {name set : Value} (h : t.addSetRow name set = .ok t') :
    Grows t t' := by
  unfold addSetRow at h
  obtain ⟨_, -, h⟩ := bind_eq_ok.1 h
  obtain ⟨_, -, h⟩ := bind_eq_ok.1 h
  obtain ⟨_, -, h⟩ := bind_eq_ok.1 h
  obtain ⟨_, -, h⟩ := bind_eq_ok.1 h
  obtain ⟨_, -, h⟩ := bind_eq_ok.1 h
  obtain ⟨_, -, h⟩ := bind_eq_ok.1 h
  obtain ⟨_, -, h⟩ := bind_eq_ok.1 h
  obtain ⟨mid, hmid, h⟩ := bind_eq_ok.1 h
  obtain ⟨block, -, h⟩ := bind_eq_ok.1 h
  have hset := addExpansion_grows (stored_eq_ok.1 hmid)
  split at h
  · cases h
    exact hset
  · obtain ⟨_, -, h⟩ := bind_eq_ok.1 h
    exact hset.trans (addBlock_grows (stored_eq_ok.1 h))

/-- Taking in a set is a number of insertions. -/
theorem addSet_grows {t t' : Tables} {name set : Value} {added : Nat}
    (h : t.addSet name set = .ok (t', added)) : Grows t t' := by
  unfold addSet at h
  obtain ⟨t₁, h₁, h⟩ := bind_eq_ok.1 h
  obtain ⟨_, -, h⟩ := bind_eq_ok.1 h
  obtain ⟨cards, -, h⟩ := bind_eq_ok.1 h
  obtain ⟨intake, hintake, h⟩ := bind_eq_ok.1 h
  obtain ⟨t₂, h₂, h⟩ := bind_eq_ok.1 h
  cases h
  exact (addSetRow_grows h₁).trans ((addCards_grows hintake).trans (addAllFaces_grows h₂))

end Tables

end CardArchive
