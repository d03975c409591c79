import CardArchive.Proofs.Store.Repeated

/-!
# The steps of a set

A set is taken in step by step. Each step reads some values and then makes one insertion, or
none. What a step reads and which insertion it makes is said here once for every step, so that
other proofs look at insertions only.

## What this module delivers

* `addSetRow_inserts`, `addCardRow_inserts`, `addPrintingRow_inserts`, `addFaces_inserts`: the
  steps that insert a row.
* `addCardData_steps`, `addCards_steps`, `addSet_steps`: the steps that others make up.
* `insertOrSkip_keeps`: a complete row, inserted or skipped, leaves a row of its key.
* `addCards_withoutCards`, `addAllFaces_expansions`: what steps leave alone.
-/

set_option autoImplicit false

namespace CardArchive

theorem Value.textFor_eq_ok {v : Value} {member s : String} (h : v.textFor member = .ok s) :
    v = .text s := by
  cases v with
  | text s' => rw [Except.ok.inj h]
  | _ => cases h

/-- What a column keeps of a value does not depend on the place of the column. -/
theorem storedText_place {v : Value} {p : Nat} {s : Option String}
    (h : storedText p v = .ok s) (q : Nat) : storedText q v = .ok s := by
  cases v with
  | decimal d => cases h
  | list xs => cases h
  | object fs => cases h
  | _ => exact h

namespace Tables

section

variable {t t' : Tables}

/-! ## Steps that insert -/

/-- A complete row that is inserted or skipped leaves a row of its key. -/
theorem insertOrSkip_keeps {ρ : Type} {clash : ρ → ρ → Bool} {refers : ρ → Bool} {r : ρ}
    {rows result : List ρ} {isNew : Bool} (hself : clash r r = true)
    (h : insertOrSkip clash refers (some r) rows = .ok (result, isNew)) :
    ∃ b ∈ result, clash r b = true := by
  rcases insertOrSkip_some h with ⟨-, rfl, htaken⟩ | ⟨-, rfl, -⟩
  · exact List.any_eq_true.1 htaken
  · exact ⟨r, List.mem_append_right _ List.mem_cons_self, hself⟩

/-- What is read of a set for its row, and what is inserted. -/
theorem addSetRow_inserts {name set : Value} (h : t.addSetRow name set = .ok t') :
    ∃ code released block s size r mid, set.item "code" = .ok (.text code) ∧
      set.item "releaseDate" = .ok released ∧ set.memberOf "block" = .ok block ∧
      storedText 1 name = .ok s ∧ storedText 4 released = .ok r ∧
      t.addExpansion s (some (Text.upper code)) size r = .ok mid ∧
      (block.truthy = false ∧ t' = mid ∨
        block.truthy = true ∧ ∃ b, storedText 2 block = .ok b ∧ mid.addBlock s b = .ok t') := by
  unfold addSetRow at h
  obtain ⟨codeValue, hitem, h⟩ := bind_eq_ok.1 h
  obtain ⟨code, hcode, h⟩ := bind_eq_ok.1 h
  obtain ⟨_, -, h⟩ := bind_eq_ok.1 h
  obtain ⟨released, hreleased, h⟩ := bind_eq_ok.1 h
  obtain ⟨s, hs, h⟩ := bind_eq_ok.1 h
  obtain ⟨size, -, h⟩ := bind_eq_ok.1 h
  obtain ⟨r, hr, h⟩ := bind_eq_ok.1 h
  obtain ⟨mid, hmid, h⟩ := bind_eq_ok.1 h
  obtain ⟨block, hblock, h⟩ := bind_eq_ok.1 h
  have hread := shaped_eq_ok.1 hitem
  rw [Value.textFor_eq_ok (shaped_eq_ok.1 hcode)] at hread
  refine ⟨code, released, block, s, size, r, mid, hread, shaped_eq_ok.1 hreleased,
    shaped_eq_ok.1 hblock, stored_eq_ok.1 hs, stored_eq_ok.1 hr, stored_eq_ok.1 hmid, ?_⟩
  cases hgiven : block.truthy with
  | false =>
    rw [hgiven] at h
    exact .inl ⟨rfl, (pure_eq_ok.1 h).symm⟩
  | true =>
    rw [hgiven] at h
    obtain ⟨b, hb, h⟩ := bind_eq_ok.1 h
    exact .inr ⟨rfl, b, stored_eq_ok.1 hb, stored_eq_ok.1 h⟩

/-- What is read of a card for its row, and what is inserted. The details follow if the row is
new. -/
theorem addCardRow_inserts {name card : Value} (h : t.addCardRow name card = .ok t') :
    ∃ text cost c text' cmc cost' mid isNew, CardData.textField card "text" = .ok text ∧
      CardData.textField card "manaCost" = .ok cost ∧ storedText 1 name = .ok c ∧
      storedText 2 text = .ok text' ∧ storedText 4 cost = .ok cost' ∧
      t.addCard c text' cmc cost' = .ok (mid, isNew) ∧
      (isNew = true ∧ mid.addDetails c card = .ok t' ∨ isNew = false ∧ t' = mid) := by
  unfold addCardRow at h
  obtain ⟨text, htext, h⟩ := bind_eq_ok.1 h
  obtain ⟨_, -, h⟩ := bind_eq_ok.1 h
  obtain ⟨cost, hcost, h⟩ := bind_eq_ok.1 h
  obtain ⟨c, hc, h⟩ := bind_eq_ok.1 h
  obtain ⟨text', htext', h⟩ := bind_eq_ok.1 h
  obtain ⟨cmc, -, h⟩ := bind_eq_ok.1 h
  obtain ⟨cost', hcost', h⟩ := bind_eq_ok.1 h
  obtain ⟨⟨mid, isNew⟩, hrow, h⟩ := bind_eq_ok.1 h
  refine ⟨text, cost, c, text', cmc, cost', mid, isNew, shaped_eq_ok.1 htext,
    shaped_eq_ok.1 hcost, stored_eq_ok.1 hc, stored_eq_ok.1 htext', stored_eq_ok.1 hcost',
    stored_eq_ok.1 hrow, ?_⟩
  cases isNew with
  | true => exact .inl ⟨rfl, h⟩
  | false => exact .inr ⟨rfl, (pure_eq_ok.1 h).symm⟩

/-- What is read of a card for its printing, and what is inserted. -/
theorem addPrintingRow_inserts {expansion name card : Value} {isNew : Bool}
    (h : t.addPrintingRow expansion name card = .ok (t', isNew)) :
    ∃ number rarity flavor artist c e r f a, card.memberOf "number" = .ok number ∧
      (card.memberOf "rarity" = .ok rarity ∧ rarity.truthy = true ∧ storedText 4 rarity = .ok r) ∧
      (CardData.textField card "flavorText" = .ok flavor ∧ storedText 5 flavor = .ok f) ∧
      (CardData.textField card "artist" = .ok artist ∧ storedText 6 artist = .ok a) ∧
      storedText 1 name = .ok c ∧ storedText 2 expansion = .ok e ∧
      t.addPrinting c e (some (number.orElse (.text "")).shown) r f a = .ok (t', isNew) := by
  unfold addPrintingRow at h
  obtain ⟨number, hnumber, h⟩ := bind_eq_ok.1 h
  obtain ⟨rarity, hrarity, h⟩ := bind_eq_ok.1 h
  obtain ⟨hgiven, h⟩ := refuse_eq_ok.1 h
  obtain ⟨flavor, hflavor, h⟩ := bind_eq_ok.1 h
  obtain ⟨artist, hartist, h⟩ := bind_eq_ok.1 h
  obtain ⟨c, hc, h⟩ := bind_eq_ok.1 h
  obtain ⟨e, he, h⟩ := bind_eq_ok.1 h
  obtain ⟨r, hr, h⟩ := bind_eq_ok.1 h
  obtain ⟨f, hf, h⟩ := bind_eq_ok.1 h
  obtain ⟨a, ha, h⟩ := bind_eq_ok.1 h
  have htruthy : rarity.truthy = true := by
    by_contra hno
    exact hgiven (by simp [hno])
  exact ⟨number, rarity, flavor, artist, c, e, r, f, a, shaped_eq_ok.1 hnumber,
    ⟨shaped_eq_ok.1 hrarity, htruthy, stored_eq_ok.1 hr⟩,
    ⟨shaped_eq_ok.1 hflavor, stored_eq_ok.1 hf⟩, ⟨shaped_eq_ok.1 hartist, stored_eq_ok.1 ha⟩,
    stored_eq_ok.1 hc, stored_eq_ok.1 he, stored_eq_ok.1 h⟩

/-- What is read of a card for its group of faces. The group is inserted if all its faces are
stored. -/
theorem addFaces_inserts {card : Value} {names : List Value} (h : t.addFaces card names = .ok t') :
    ∃ layout faces, card.memberOf "layout" = .ok layout ∧ layout.truthy = true ∧
      (names.length = 2 ∨ names.length = 3) ∧ storedNames 1 names = .ok faces ∧
      ((t.faceRows faces).length ≠ names.length ∧ t' = t ∨
        (t.faceRows faces).length = names.length ∧ ∃ l total,
          storedText (names.length + 1) layout = .ok l ∧ t.addGroup faces l total = .ok t') := by
  unfold addFaces at h
  obtain ⟨layout, hlayout, h⟩ := bind_eq_ok.1 h
  obtain ⟨_, -, h⟩ := bind_eq_ok.1 h
  obtain ⟨hgiven, h⟩ := refuse_eq_ok.1 h
  obtain ⟨hcount, h⟩ := refuse_eq_ok.1 h
  obtain ⟨faces, hfaces, h⟩ := bind_eq_ok.1 h
  obtain ⟨-, h⟩ := refuse_eq_ok.1 h
  refine ⟨layout, faces, shaped_eq_ok.1 hlayout, by simpa using hgiven, by omega,
    stored_eq_ok.1 hfaces, ?_⟩
  by_cases hall : (t.faceRows faces).length = names.length
  · rw [if_neg (not_not_intro hall)] at h
    obtain ⟨l, hl, h⟩ := bind_eq_ok.1 h
    exact .inr ⟨hall, l, _, stored_eq_ok.1 hl, stored_eq_ok.1 h⟩
  · rw [if_pos hall] at h
    exact .inl ⟨hall, (pure_eq_ok.1 h).symm⟩

/-! ## Steps that are made up of others -/

/-- A card is taken in with its row, and then its printing. -/
theorem addCardData_steps {expansion card : Value} {isNew : Bool}
    (h : t.addCardData expansion card = .ok (t', isNew)) :
    ∃ name mid, CardData.name card = .ok name ∧ t.addCardRow name card = .ok mid ∧
      mid.addPrintingRow expansion name card = .ok (t', isNew) := by
  unfold addCardData at h
  obtain ⟨name, hname, h⟩ := bind_eq_ok.1 h
  obtain ⟨mid, hmid, h⟩ := bind_eq_ok.1 h
  exact ⟨name, mid, shaped_eq_ok.1 hname, hmid, h⟩

/-- Cards are taken in one after the other. -/
theorem addCards_steps {expansion card : Value} {rest : List Value} {i : Intake}
    (h : t.addCards expansion (card :: rest) = .ok i) :
    ∃ mid isNew faces later, t.addCardData expansion card = .ok (mid, isNew) ∧
      CardData.faces? card = .ok faces ∧ mid.addCards expansion rest = .ok later ∧
      i.tables = later.tables ∧
      i.faces = (faces.map fun names => (card, names)).toList ++ later.faces := by
  unfold addCards at h
  obtain ⟨⟨mid, isNew⟩, hmid, h⟩ := bind_eq_ok.1 h
  obtain ⟨faces, hfaces, h⟩ := bind_eq_ok.1 h
  obtain ⟨later, hlater, h⟩ := bind_eq_ok.1 h
  cases h
  exact ⟨mid, isNew, faces, later, hmid, shaped_eq_ok.1 hfaces, hlater, rfl, rfl⟩

/-- The steps in which a set is taken in. -/
theorem addSet_steps {name set : Value} {n : Nat} (h : t.addSet name set = .ok (t', n)) :
    ∃ mid intake, t.addSetRow name set = .ok mid ∧
      mid.addCards name (set.itemsAt "cards") = .ok intake ∧
      intake.tables.addAllFaces intake.faces = .ok t' := by
  unfold addSet at h
  obtain ⟨mid, hrow, h⟩ := bind_eq_ok.1 h
  obtain ⟨v, hv, h⟩ := bind_eq_ok.1 h
  obtain ⟨cards, hcards, h⟩ := bind_eq_ok.1 h
  obtain ⟨intake, hintake, h⟩ := bind_eq_ok.1 h
  obtain ⟨last, hlast, h⟩ := bind_eq_ok.1 h
  cases h
  obtain rfl := elements_eq_itemsAt (shaped_eq_ok.1 hv) (shaped_eq_ok.1 hcards) hintake
  exact ⟨mid, intake, hrow, hintake, hlast⟩

/-! ## What the steps leave alone -/

/-- The tables without cards, their details and their printings. -/
def withoutCards (t : Tables) : Tables := { t.withoutDetails with cards := [], printings := [] }

theorem addCardRow_withoutCards {name card : Value} (h : t.addCardRow name card = .ok t') :
    t'.withoutCards = t.withoutCards := by
  obtain ⟨_, _, _, _, _, _, mid, _, -, -, -, -, -, hrow, hdetails⟩ := addCardRow_inserts h
  obtain ⟨⟨cards, new⟩, -, hrow⟩ := bind_eq_ok.1 hrow
  cases hrow
  rcases hdetails with ⟨-, hdetails⟩ | ⟨-, rfl⟩
  · have hsame := congrArg (fun t => { t with cards := [], printings := [] })
      (addDetails_withoutDetails hdetails)
    exact hsame
  · rfl

theorem addPrintingRow_withoutCards {expansion name card : Value} {isNew : Bool}
    (h : t.addPrintingRow expansion name card = .ok (t', isNew)) :
    t'.withoutCards = t.withoutCards := by
  obtain ⟨_, _, _, _, _, _, _, _, _, -, -, -, -, -, -, h⟩ := addPrintingRow_inserts h
  obtain ⟨⟨printings, new⟩, -, h⟩ := bind_eq_ok.1 h
  cases h
  rfl

/-- The cards of a set change neither sets nor blocks nor groups of faces. -/
theorem addCards_withoutCards {expansion : Value} {cards : List Value} {i : Intake}
    (h : t.addCards expansion cards = .ok i) : i.tables.withoutCards = t.withoutCards := by
  -- from any tables, as each card meets what those before it have left
  induction cards generalizing t i with
  | nil =>
    cases h
    rfl
  | cons card rest ih =>
    obtain ⟨mid, isNew, faces, later, hcard, -, hlater, htables, -⟩ := addCards_steps h
    obtain ⟨name, row, -, hrow, hprinting⟩ := addCardData_steps hcard
    rw [htables, ih hlater, addPrintingRow_withoutCards hprinting, addCardRow_withoutCards hrow]

theorem addGroup_expansions {names : List (Option String)} {layout : Option String} {total : Int}
    (h : t.addGroup names layout total = .ok t') : t'.expansions = t.expansions := by
  unfold addGroup at h
  split at h
  · obtain ⟨⟨rows, isNew⟩, -, h⟩ := bind_eq_ok.1 h
    cases h
    rfl
  · obtain ⟨⟨rows, isNew⟩, -, h⟩ := bind_eq_ok.1 h
    cases h
    rfl
  · cases h
    rfl

theorem addAllFaces_expansions {groups : List (Value × List Value)}
    (h : t.addAllFaces groups = .ok t') : t'.expansions = t.expansions := by
  induction groups generalizing t with
  | nil =>
    cases h
    rfl
  | cons group rest ih =>
    obtain ⟨card, names⟩ := group
    unfold addAllFaces at h
    obtain ⟨mid, hmid, h⟩ := bind_eq_ok.1 h
    rw [ih h]
    obtain ⟨_, _, -, -, -, -, ⟨-, rfl⟩ | ⟨-, _, _, -, hgroup⟩⟩ := addFaces_inserts hmid
    · rfl
    · exact addGroup_expansions hgroup

end

end Tables

end CardArchive
