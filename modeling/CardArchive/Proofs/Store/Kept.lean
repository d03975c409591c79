import CardArchive.Proofs.Store.Numbers
import CardArchive.Proofs.Store.Steps
import CardArchive.Proofs.Store.Stock
import CardArchive.Server.Answers

/-!
# What is kept of a set

A set that is accepted need not be stored as a whole. A row that can not be completed, or
whose key is taken, is skipped without a failure, and only some of the keys are those that a
reader would ask for. The row of a set is skipped if its code is taken by a set of another
name, and nothing can be found under a name that is null.

## What this module delivers

* `Value.isWrittenSet`: the sets without a number that has no value.
* `Tables.ListsSet`, `Tables.FindsBlock`: what is asked for the name and the block of a set.
* `addSetRow_lists`, `addSetRow_block`: the row of a set and its block.
* `Tables.KeepsCard` and `addSet_keeps`: each card of a set is stored with its printing.
* `insertSet_kept`: what can be found of a set that is accepted.
* `clashingSet_lost`: a set and a card that can not be found.
-/

set_option autoImplicit false

namespace CardArchive

/-! ## Values that are written -/

namespace Value

/-- Whether a value can be written down. A number without a value can not, and is not found in
a file of sets. -/
def isWritten : Value → Bool
  | float x => (Number.kept x).isSome
  | _ => true

/-- Whether the fields of a value can be written down. -/
def hasWrittenFields : Value → Bool
  | object fs => fs.all fun f => f.2.isWritten
  | _ => true

/-- Whether the fields of a set and of its cards can be written down. -/
def isWrittenSet (set : Value) : Bool :=
  set.hasWrittenFields && (set.itemsAt "cards").all hasWrittenFields

theorem isWritten_of_field? {v w : Value} {field : String} (hv : v.hasWrittenFields = true)
    (h : v.field? field = some w) : w.isWritten = true := by
  cases v with
  | object fs =>
    change lookup field fs = some w at h
    induction fs with
    | nil => cases h
    | cons f rest ih =>
      obtain ⟨k, u⟩ := f
      rw [hasWrittenFields, List.all_cons, Bool.and_eq_true] at hv
      obtain ⟨hu, hrest⟩ := hv
      rw [lookup] at h
      split at h
      · obtain rfl := Option.some.inj h
        exact hu
      · exact ih hrest h
  | _ => cases h

theorem isWritten_of_item {v w : Value} {field : String} (hv : v.hasWrittenFields = true)
    (h : v.item field = .ok w) : w.isWritten = true :=
  isWritten_of_field? hv (item_eq_ok h)

/-- A field that is not there is null, which can be written down. -/
theorem isWritten_of_memberOf {v w : Value} {field : String} (hv : v.hasWrittenFields = true)
    (h : v.memberOf field = .ok w) : w.isWritten = true := by
  rw [memberOf_eq_ok h]
  cases hfield : v.field? field with
  | none => rfl
  | some u => exact isWritten_of_field? hv hfield

theorem isNull_of_truthy {v : Value} (h : v.truthy = true) : v.isNull = false := by
  cases v with
  | null => cases h
  | _ => rfl

end Value

/-- Of what is written, a column drops the null alone. -/
theorem isSome_storedText {v : Value} {position : Nat} {s : Option String}
    (hv : v.isWritten = true) (h : storedText position v = .ok s) : s.isSome = !v.isNull := by
  cases v with
  | null =>
    cases h
    rfl
  | float x =>
    cases h
    exact hv
  | int n =>
    obtain ⟨m, -, rfl⟩ := map_eq_ok.1 h
    rfl
  | bool b =>
    cases h
    rfl
  | text s =>
    cases h
    rfl
  | _ => cases h

/-- A field that is empty if it is not given is never dropped. -/
theorem isSome_textField {c v : Value} {field : String} {position : Nat} {s : Option String}
    (hc : c.hasWrittenFields = true) (hv : CardData.textField c field = .ok v)
    (h : storedText position v = .ok s) : s.isSome = true := by
  obtain ⟨w, hw, hv⟩ := bind_eq_ok.1 hv
  obtain rfl := pure_eq_ok.1 hv
  rw [Value.orElse] at h
  split at h
  · rename_i hgiven
    rw [isSome_storedText (Value.isWritten_of_memberOf hc hw) h, Value.isNull_of_truthy hgiven]
    rfl
  · cases h
    rfl

/-- The name of a card is that of a field of it. -/
theorem isWritten_of_name {c v : Value} (hc : c.hasWrittenFields = true)
    (h : CardData.name c = .ok v) : v.isWritten = true := by
  unfold CardData.name at h
  obtain ⟨face, hface, h⟩ := bind_eq_ok.1 h
  split at h
  · obtain rfl := pure_eq_ok.1 h
    exact Value.isWritten_of_memberOf hc hface
  · exact Value.isWritten_of_item hc h

/-! ## Questions for a set -/

namespace Tables

/-- Whether the vocabulary of sets lists a name. -/
def ListsSet (t : Tables) (name : Value) : Prop :=
  match storedText 1 name with
  | .ok (some s) => s ∈ t.setNames.values
  | .ok none => t.setNames.unnamed = true
  | .error _ => False

instance (t : Tables) (name : Value) : Decidable (t.ListsSet name) :=
  match hread : storedText 1 name with
  | .ok (some s) => decidable_of_iff (s ∈ t.setNames.values) (by rw [ListsSet, hread])
  | .ok none => decidable_of_iff (t.setNames.unnamed = true) (by rw [ListsSet, hread])
  | .error _ => .isFalse (by rw [ListsSet, hread]; exact id)

/-- Whether a set of the name is among those of a block. -/
def FindsBlock (t : Tables) (block name : Value) : Prop :=
  ∃ b s, storedText 1 block = .ok (some b) ∧ storedText 1 name = .ok (some s) ∧
    s ∈ t.blockSets.setsOf b

section

variable {t t' : Tables}

/-- A name is listed if a set is stored under it, also if that is no name. -/
theorem listsSet_iff {name : Value} {position : Nat} {s : Option String}
    (h : storedText position name = .ok s) :
    t.ListsSet name ↔ s ∈ t.expansions.map ExpansionRow.name := by
  rw [ListsSet, storedText_place h 1]
  cases s with
  | none => simp [setNames]
  | some s => simp [setNames]

theorem listsSet_congr (h : t'.expansions = t.expansions) (name : Value) :
    t'.ListsSet name ↔ t.ListsSet name := by
  rw [ListsSet, ListsSet, setNames, setNames, h]

theorem listsSet_of_hasExpansion {name : Value} {s : String} {position : Nat}
    (hs : storedText position name = .ok (some s)) (h : t.hasExpansion s = true) :
    t.ListsSet name := by
  obtain ⟨r, hr, hname⟩ := List.any_eq_true.1 h
  exact (listsSet_iff hs).2 (List.mem_map.2 ⟨r, hr, eq_of_beq hname⟩)

theorem FindsBlock.mono {block name : Value} (h : t.FindsBlock block name)
    (hlater : t.Extends t') : t'.FindsBlock block name := by
  obtain ⟨b, s, hb, hs, hmem⟩ := h
  have hrow := hlater.blocks.subset (mem_setsOf_blockSets.1 hmem)
  exact ⟨b, s, hb, hs, mem_setsOf_blockSets.2 hrow⟩

/-- A set that is found under a block is listed. -/
theorem FindsBlock.listsSet {block name : Value} (h : t.FindsBlock block name) (ht : t.Keyed) :
    t.ListsSet name := by
  obtain ⟨b, s, -, hs, hmem⟩ := h
  exact listsSet_of_hasExpansion hs (ht.blocks _ (mem_setsOf_blockSets.1 hmem))

theorem FindsBlock.isNull {block name : Value} (h : t.FindsBlock block name) :
    name.isNull = false := by
  obtain ⟨b, s, -, hs, -⟩ := h
  cases name with
  | null => cases hs
  | _ => rfl

/-! ## The row of a set -/

/-- A set is stored under its name if one was before, or if its row is complete and its code
is free. -/
theorem addExpansion_lists {name released : Option String} {code : String} {size : Int}
    (h : t.addExpansion name (some code) size released = .ok t') :
    name ∈ t'.expansions.map ExpansionRow.name ↔
      name ∈ t.expansions.map ExpansionRow.name ∨
        released.isSome = true ∧ ∀ r ∈ t.expansions, r.code ≠ code := by
  obtain ⟨⟨rows, isNew⟩, hrows, h⟩ := bind_eq_ok.1 h
  cases h
  cases released with
  | none =>
    cases hrows
    simp
  | some released =>
    rcases insertOrSkip_some hrows with ⟨-, rfl, htaken⟩ | ⟨-, rfl, hnew⟩
    · -- the row in the way has the name, or it has the code
      obtain ⟨r, hr, hclash⟩ := List.any_eq_true.1 htaken
      rcases Bool.or_eq_true_iff.1 hclash with hname | hcode
      · have hlisted : name ∈ t.expansions.map ExpansionRow.name :=
          List.mem_map.2 ⟨r, hr, (eq_of_beq (Bool.and_eq_true_iff.1 hname).2).symm⟩
        simp only [hlisted, true_or]
      · have hcode : ¬∀ r ∈ t.expansions, r.code ≠ code := fun hfree =>
          hfree r hr (eq_of_beq hcode).symm
        simp only [hcode, and_false, or_false]
    · have hfree : ∀ r ∈ t.expansions, r.code ≠ code := by
        rintro r hr rfl
        exact List.any_eq_false.1 hnew r hr (by simp)
      refine iff_of_true ?_ (.inr ⟨rfl, hfree⟩)
      rw [List.map_append]
      exact List.mem_append_right _ List.mem_cons_self

/-- A block that is complete is stored with its set. -/
theorem addBlock_stores {expansion block : String}
    (h : t.addBlock (some expansion) (some block) = .ok t') : ⟨expansion, block⟩ ∈ t'.blocks := by
  obtain ⟨⟨rows, isNew⟩, hrows, h⟩ := bind_eq_ok.1 h
  cases h
  obtain ⟨r, hr, hsame⟩ := insertOrSkip_keeps (by simp) hrows
  obtain rfl := eq_of_beq hsame
  exact hr

/-- The name of a set is listed after its row if it was before, or if the row is new. -/
theorem addSetRow_lists {name set : Value} (hset : set.hasWrittenFields = true)
    (h : t.addSetRow name set = .ok t') :
    ∃ code released, set.item "code" = .ok (.text code) ∧
      set.item "releaseDate" = .ok released ∧
      (t'.ListsSet name ↔ t.ListsSet name ∨
        released.isNull = false ∧ ∀ r ∈ t.expansions, r.code ≠ Text.upper code) := by
  obtain ⟨code, released, block, s, size, r, mid, hcode, hreleased, -, hs, hr, hrow, hblock⟩ :=
    addSetRow_inserts h
  refine ⟨code, released, hcode, hreleased, ?_⟩
  have hsame : t'.expansions = mid.expansions := by
    rcases hblock with ⟨-, rfl⟩ | ⟨-, b, -, hblock⟩
    · rfl
    · obtain ⟨⟨rows, isNew⟩, -, hblock⟩ := bind_eq_ok.1 hblock
      cases hblock
      rfl
  have hdated := isSome_storedText (Value.isWritten_of_item hset hreleased) hr
  rw [listsSet_iff hs, listsSet_iff hs, hsame, addExpansion_lists hrow, hdated,
    Bool.not_eq_true']

/-- A set with a name is found under the block that is given with it. -/
theorem addSetRow_block {name set : Value} (hset : set.hasWrittenFields = true)
    (hname : set.item "name" = .ok name) (h : t.addSetRow name set = .ok t') :
    ∃ block, set.memberOf "block" = .ok block ∧
      (block.truthy = true → name.isNull = false → t'.FindsBlock block name) := by
  obtain ⟨code, released, block, s, size, r, mid, -, -, hread, hs, -, -, hblock⟩ :=
    addSetRow_inserts h
  refine ⟨block, hread, fun hgiven hnamed => ?_⟩
  obtain ⟨hno, -⟩ | ⟨-, b, hb, hblock⟩ := hblock
  · rw [hgiven] at hno
    cases hno
  · have hsomeName := isSome_storedText (Value.isWritten_of_item hset hname) hs
    have hsomeBlock := isSome_storedText (Value.isWritten_of_memberOf hset hread) hb
    rw [hnamed] at hsomeName
    rw [Value.isNull_of_truthy hgiven] at hsomeBlock
    obtain ⟨s, rfl⟩ := Option.isSome_iff_exists.1 hsomeName
    obtain ⟨b, rfl⟩ := Option.isSome_iff_exists.1 hsomeBlock
    exact ⟨b, s, storedText_place hb 1, hs, mem_setsOf_blockSets.2 (addBlock_stores hblock)⟩

/-! ## Cards with their printings -/

/-- A card is stored, if it has a name, and a printing of it, if the set has one as well. -/
structure KeepsCard (t : Tables) (c e : Option String) (number : String) : Prop where
  card : ∀ x ∈ c, t.hasCard x = true
  printing : ∀ x ∈ c, ∀ y ∈ e, t.hasPrinting x y number = true

theorem KeepsCard.mono {c e : Option String} {number : String} (h : t.KeepsCard c e number)
    (hlater : t.Extends t') : t'.KeepsCard c e number where
  card x hx := Keyed.hasCard_mono hlater (h.card x hx)
  printing x hx y hy := by
    obtain ⟨r, hr, hkey⟩ := List.any_eq_true.1 (h.printing x hx y hy)
    exact List.any_eq_true.2 ⟨r, hlater.printings.subset hr, hkey⟩

/-- What is stored of a card answers for its name and for its printing. -/
theorem KeepsCard.found {c e : Option String} {number : String} {name expansion : Value}
    (h : t.KeepsCard c e number) (hc : storedText 1 name = .ok c)
    (he : storedText 2 expansion = .ok e) :
    t.findsPrinting name expansion (.text number) = .ok (c.isSome && e.isSome) ∧
      ∃ d, detailsFor t name = .ok d ∧ d.isSome = c.isSome := by
  constructor
  · rw [findsPrinting, hc, ok_bind, he, ok_bind, storedText_text, ok_bind]
    cases c with
    | none => rfl
    | some x =>
      cases e with
      | none => rfl
      | some y => exact congrArg _ (h.printing x rfl y rfl)
  · have hkey : (c.bind t.details?).isSome = c.isSome := by
      cases c with
      | none => rfl
      | some x => simpa [details?, hasCard] using h.card x rfl
    cases name with
    | text s =>
      refine ⟨c.bind t.details?, ?_, hkey⟩
      rw [detailsFor, stored_eq_ok.2 hc, ok_bind]
      rfl
    | _ =>
      refine ⟨(c.bind t.details?).map fun d => { d with groups := [] }, ?_,
        Option.isSome_map.trans hkey⟩
      rw [detailsFor, stored_eq_ok.2 hc, ok_bind]
      rfl

/-- The set of a printing that is held is listed. -/
theorem KeepsCard.listsSet {c e : Option String} {number : String} {name : Value}
    (h : t.KeepsCard c e number) (ht : t.Keyed) (hc : c.isSome = true)
    (he : storedText 2 name = .ok e) (hnamed : e.isSome = true) : t.ListsSet name := by
  obtain ⟨x, rfl⟩ := Option.isSome_iff_exists.1 hc
  obtain ⟨y, rfl⟩ := Option.isSome_iff_exists.1 hnamed
  obtain ⟨r, hr, hkey⟩ := List.any_eq_true.1 (h.printing x rfl y rfl)
  simp only [Bool.and_eq_true, beq_iff_eq] at hkey
  exact listsSet_of_hasExpansion he (hkey.1.2 ▸ (ht.printings r hr).2)

theorem addCardRow_stores {name card : Value} (hcard : card.hasWrittenFields = true)
    (h : t.addCardRow name card = .ok t') :
    ∃ c, storedText 1 name = .ok c ∧ ∀ x ∈ c, t'.hasCard x = true := by
  obtain ⟨text, cost, c, text', cmc, cost', mid, isNew, htext, hcost, hc, htext', hcost', hrow,
    hdetails⟩ := addCardRow_inserts h
  refine ⟨c, hc, fun x hx => ?_⟩
  obtain rfl := Option.mem_def.1 hx
  -- nothing that the row needs is missing
  obtain ⟨text', rfl⟩ := Option.isSome_iff_exists.1 (isSome_textField hcard htext htext')
  obtain ⟨cost', rfl⟩ := Option.isSome_iff_exists.1 (isSome_textField hcard hcost hcost')
  obtain ⟨⟨rows, new⟩, hrows, hrow⟩ := bind_eq_ok.1 hrow
  cases hrow
  obtain ⟨r, hr, hsame⟩ := insertOrSkip_keeps (by simp [sameKey]) hrows
  have hname : some x = r.name := eq_of_beq (Bool.and_eq_true_iff.1 hsame).2
  have hstored : rows.any (fun r => r.name == some x) = true :=
    List.any_eq_true.2 ⟨r, hr, by simp [hname]⟩
  rcases hdetails with ⟨-, hdetails⟩ | ⟨-, rfl⟩
  · rw [hasCard, addDetails_cards hdetails]
    exact hstored
  · exact hstored

theorem addPrintingRow_stores {expansion name card : Value} {isNew : Bool}
    (hcard : card.hasWrittenFields = true)
    (h : t.addPrintingRow expansion name card = .ok (t', isNew)) :
    ∃ number c e, card.memberOf "number" = .ok number ∧ storedText 1 name = .ok c ∧
      storedText 2 expansion = .ok e ∧
      ∀ x ∈ c, ∀ y ∈ e, t'.hasPrinting x y (number.orElse (.text "")).shown = true := by
  obtain ⟨number, rarity, flavor, artist, c, e, r, f, a, hnumber, ⟨hrarity, htruthy, hr⟩,
    ⟨hflavor, hf⟩, ⟨hartist, ha⟩, hc, he, h⟩ := addPrintingRow_inserts h
  refine ⟨number, c, e, hnumber, hc, he, fun x hx y hy => ?_⟩
  obtain rfl := Option.mem_def.1 hx
  obtain rfl := Option.mem_def.1 hy
  have hgiven : r.isSome = true := by
    rw [isSome_storedText (Value.isWritten_of_memberOf hcard hrarity) hr,
      Value.isNull_of_truthy htruthy]
    rfl
  obtain ⟨r, rfl⟩ := Option.isSome_iff_exists.1 hgiven
  obtain ⟨f, rfl⟩ := Option.isSome_iff_exists.1 (isSome_textField hcard hflavor hf)
  obtain ⟨a, rfl⟩ := Option.isSome_iff_exists.1 (isSome_textField hcard hartist ha)
  obtain ⟨⟨rows, new⟩, hrows, h⟩ := bind_eq_ok.1 h
  cases h
  obtain ⟨p, hp, hsame⟩ := insertOrSkip_keeps (by simp) hrows
  refine List.any_eq_true.2 ⟨p, hp, ?_⟩
  simp only [Bool.and_eq_true, beq_iff_eq] at hsame ⊢
  exact ⟨⟨hsame.1.1.symm, hsame.1.2.symm⟩, hsame.2.symm⟩

/-- Every card of a set is there when all are in. -/
theorem addCards_keeps {expansion : Value} {cards : List Value} {i : Intake}
    (hcards : ∀ card ∈ cards, card.hasWrittenFields = true)
    (h : t.addCards expansion cards = .ok i) :
    ∀ card ∈ cards, ∃ name number c e, CardData.name card = .ok name ∧
      card.memberOf "number" = .ok number ∧ storedText 1 name = .ok c ∧
      storedText 2 expansion = .ok e ∧
      i.tables.KeepsCard c e (number.orElse (.text "")).shown := by
  induction cards generalizing t i with
  | nil => exact List.forall_mem_nil _
  | cons card rest ih =>
    obtain ⟨hcard, hrest⟩ := List.forall_mem_cons.1 hcards
    obtain ⟨mid, isNew, faces, later, hfirst, -, hlater, htables, -⟩ := addCards_steps h
    rw [htables]
    refine List.forall_mem_cons.2 ⟨?_, ih hrest hlater⟩
    obtain ⟨name, row, hname, hrow, hprinting⟩ := addCardData_steps hfirst
    obtain ⟨c, hc, hstored⟩ := addCardRow_stores hcard hrow
    obtain ⟨number, c', e, hnumber, hc', he, hprinted⟩ := addPrintingRow_stores hcard hprinting
    obtain rfl := Except.ok.inj (hc.symm.trans hc')
    -- the printing leaves the card where it is, and the later cards both of them
    have hkept : mid.KeepsCard c e (number.orElse (.text "")).shown :=
      ⟨fun x hx => Keyed.hasCard_mono (addPrintingRow_grows hprinting).extends (hstored x hx),
        hprinted⟩
    exact ⟨name, number, c, e, hname, hnumber, hc, he,
      hkept.mono (addCards_grows hlater).extends⟩

/-! ## One set -/

theorem addSet_expansions {name set : Value} {n : Nat} (h : t.addSet name set = .ok (t', n)) :
    ∃ mid, t.addSetRow name set = .ok mid ∧ mid.Extends t' ∧ t'.expansions = mid.expansions := by
  obtain ⟨mid, intake, hrow, hintake, hlast⟩ := addSet_steps h
  have hcards : intake.tables.expansions = mid.expansions := by
    have hsame := congrArg Tables.expansions (addCards_withoutCards hintake)
    exact hsame
  exact ⟨mid, hrow, (addCards_grows hintake).extends.trans (addAllFaces_grows hlast).extends,
    (addAllFaces_expansions hlast).trans hcards⟩

theorem addSet_keeps {name set : Value} {n : Nat} (hset : set.isWrittenSet = true)
    (hname : set.item "name" = .ok name) (h : t.addSet name set = .ok (t', n)) :
    ∀ card ∈ set.itemsAt "cards", ∃ v number c e, CardData.name card = .ok v ∧
      card.memberOf "number" = .ok number ∧
      (storedText 1 v = .ok c ∧ c.isSome = !v.isNull) ∧
      (storedText 2 name = .ok e ∧ e.isSome = !name.isNull) ∧
      t'.KeepsCard c e (number.orElse (.text "")).shown := by
  obtain ⟨mid, intake, -, hintake, hlast⟩ := addSet_steps h
  obtain ⟨hfields, hcards⟩ := Bool.and_eq_true_iff.1 hset
  replace hcards := List.all_eq_true.1 hcards
  intro card hcard
  obtain ⟨v, number, c, e, hv, hnumber, hc, he, hkept⟩ := addCards_keeps hcards hintake card hcard
  have hwritten := isWritten_of_name (hcards card hcard) hv
  exact ⟨v, number, c, e, hv, hnumber, ⟨hc, isSome_storedText hwritten hc⟩,
    ⟨he, isSome_storedText (Value.isWritten_of_item hfields hname) he⟩,
    hkept.mono (addAllFaces_grows hlast).extends⟩

end

end Tables

/-! ## The result -/

/-- What can be found of a set that is accepted, whatever the tables held before. Its name is
listed if it was before, or if its date is not null and no set has its code; it is listed as
well if a block is given or a card has a name. The set is then found under the block, each
card under its name, and the printing under the names of both and the number, as far as these
names are not null. -/
theorem insertSet_kept (changes : List Change) {set : Value} {n : Nat}
    (hset : set.isWrittenSet = true)
    (h : ((Database.after changes).insertSet set).2 = .ok n) :
    let t := (Database.after changes).tables
    let t' := ((Database.after changes).insertSet set).1.tables
    ∃ name code released block, set.item "name" = .ok name ∧ set.item "code" = .ok (.text code) ∧
      set.item "releaseDate" = .ok released ∧ set.memberOf "block" = .ok block ∧
      (t'.ListsSet name ↔ t.ListsSet name ∨
        released.isNull = false ∧ ∀ r ∈ t.expansions, r.code ≠ Text.upper code) ∧
      (name.isNull = false →
        (block.truthy = true ∨ ∃ card ∈ set.itemsAt "cards", CardData.name card ≠ .ok .null) →
        t'.ListsSet name) ∧
      (block.truthy = true → (t'.FindsBlock block name ↔ name.isNull = false)) ∧
      ∀ card ∈ set.itemsAt "cards", ∃ v number, CardData.name card = .ok v ∧
        card.memberOf "number" = .ok number ∧
        t'.findsPrinting v name (.text (number.orElse (.text "")).shown) =
          .ok (!v.isNull && !name.isNull) ∧
        ∃ d, detailsFor t' v = .ok d ∧ d.isSome = !v.isNull := by
  intro t t'
  obtain ⟨name, hname, hadded⟩ := Database.insertSet_ok h
  obtain ⟨_, -, hitem⟩ := bind_eq_ok.1 hname
  replace hitem := shaped_eq_ok.1 hitem
  -- printings and blocks refer to sets that are there, so what is found has its set listed
  have hkeyed : t'.Keyed := (Tables.addSet_grows hadded).preserves
    (fun _ _ hstep hbefore => hbefore.insertion hstep) (keyed_after changes)
  have hfields := (Bool.and_eq_true_iff.1 hset).1
  obtain ⟨mid, hrow, hextends, hexpansions⟩ := Tables.addSet_expansions hadded
  obtain ⟨code, released, hcode, hreleased, hlists⟩ := Tables.addSetRow_lists hfields hrow
  obtain ⟨block, hblock, hfinds⟩ := Tables.addSetRow_block hfields hitem hrow
  have hcards := Tables.addSet_keeps hset hitem hadded
  refine ⟨name, code, released, block, hitem, hcode, hreleased, hblock, ?_, ?_, ?_, ?_⟩
  · -- after its row, nothing of the set touches the sets
    rw [← hlists]
    exact Tables.listsSet_congr hexpansions name
  · rintro hnamed (hgiven | ⟨card, hcard, hcardName⟩)
    · exact ((hfinds hgiven hnamed).mono hextends).listsSet hkeyed
    · obtain ⟨v, number, c, e, hv, -, ⟨-, hc⟩, ⟨he, hsome⟩, hkept⟩ := hcards card hcard
      have hcardNamed : v.isNull = false := by
        cases v with
        | null => exact absurd hv hcardName
        | _ => rfl
      rw [hcardNamed] at hc
      rw [hnamed] at hsome
      exact hkept.listsSet hkeyed hc he hsome
  · exact fun hgiven => ⟨Tables.FindsBlock.isNull, fun hnamed =>
      (hfinds hgiven hnamed).mono hextends⟩
  · intro card hcard
    obtain ⟨v, number, c, e, hv, hnumber, ⟨hc, hcard⟩, ⟨he, hname⟩, hkept⟩ := hcards card hcard
    obtain ⟨hprinting, hdetails⟩ := hkept.found hc he
    rw [hcard, hname] at hprinting
    rw [hcard] at hdetails
    exact ⟨v, number, hv, hnumber, hprinting, hdetails⟩

/-- All of the set with one whole card is found. -/
theorem wholeSet_kept :
    wholeSet.isWrittenSet = true ∧ (Database.empty.insertSet wholeSet).2 = .ok 1 ∧
      let t := (Database.empty.insertSet wholeSet).1.tables
      t.ListsSet (.text "Mirage") ∧ t.FindsBlock (.text "Mirage") (.text "Mirage") ∧
        t.findsPrinting (.text "Asmira") (.text "Mirage") (.text "210") = .ok true := by
  have hset : wholeSet.isWrittenSet = true := by decide +kernel
  have htaken : (Database.empty.insertSet wholeSet).2 = .ok 1 := by decide +kernel
  obtain ⟨name, code, released, block, hname, -, -, hblock, -, hlists, hfinds, hcards⟩ :=
    insertSet_kept [] hset htaken
  obtain rfl : Value.text "Mirage" = name := Except.ok.inj hname
  obtain rfl : Value.text "Mirage" = block := Except.ok.inj hblock
  refine ⟨hset, htaken, hlists rfl (.inl rfl), (hfinds rfl).2 rfl, ?_⟩
  obtain ⟨v, number, hv, hnumber, hprinting, -⟩ := hcards _ List.mem_cons_self
  obtain rfl : Value.text "Asmira" = v := Except.ok.inj hv
  obtain rfl : Value.int 210 = number := Except.ok.inj hnumber
  exact hprinting

/-- A set with the code of another one, and without cards. -/
def clashingSet : Value :=
  .object [("name", .text "Apocalypse Promos"), ("code", .text "apc"),
    ("releaseDate", .text "2001-06-04"), ("cards", .list [])]

/-- A set whose code is taken is accepted and not listed, and so is a card without a name
accepted and its printing not found. -/
theorem clashingSet_lost :
    let t := (Database.empty.insertSet splitSet).1
    (t.insertSet clashingSet).2 = .ok 0 ∧
      ¬(t.insertSet clashingSet).1.tables.ListsSet (.text "Apocalypse Promos") ∧
      (Database.empty.insertSet namelessSet).2 = .ok 0 ∧
      (Database.empty.insertSet namelessSet).1.tables.findsPrinting .null (.text "Alpha")
        (.text "46") = .ok false := by
  decide +kernel

end CardArchive
