import CardArchive.Proofs.Store.Profiles

/-!
# What a run of sets leaves behind

Sets are taken in one after the other, and some of them are refused. What the tables say of
a card afterwards is what the first card object of its name said, over all sets that were
accepted and in the order they came; a printing is what the first object of its set and
number said. Later objects of a known name or printing change nothing.

## What this module delivers

* `PlacedCard` and `placedCards`: the card objects of a set, each with its set.
* `Database.accepted`: the sets of a run that were not refused.
* `Mirrors`: the tables against the card objects taken in so far, with a lemma for each step
  of taking in a set.
* `CardDetails.DescribedBy`: the attributes of a card that one object gives.
* `cards_of_first_objects`: the result for any run of sets.
-/

set_option autoImplicit false

namespace CardArchive

/-! ## The objects of a run -/

/-- A card object and the name of the set it came in. -/
structure PlacedCard where
  expansion : String
  card : Value

namespace PlacedCard

/-- The name that the card is stored under. -/
def name (o : PlacedCard) : String := CardObject.name o.card

/-- The printing that the object describes. -/
def row (o : PlacedCard) : PrintingRow := CardObject.printing o.expansion o.card

/-- The card, the set and the number of the printing. -/
def key (o : PlacedCard) : PrintingKey := o.row.key

end PlacedCard

/-- The card objects of a set, in order. -/
def placedCards (set : Value) : List PlacedCard :=
  (set.itemsAt "cards").map fun c => ⟨set.textAt "name", c⟩

/-- The first object of a name. -/
def firstNamed (objects : List PlacedCard) (name : String) : Option PlacedCard :=
  objects.find? fun o => o.name == name

/-- The first object of a printing. -/
def firstOf (objects : List PlacedCard) (key : PrintingKey) : Option PlacedCard :=
  objects.find? fun o => o.key == key

namespace Database

/-- The database after some sets, of which some may be refused. -/
def afterSets (db : Database) (sets : List Value) : Database :=
  sets.foldl (fun db set => (db.insertSet set).1) db

/-- The sets that are accepted, in order. -/
def accepted (db : Database) : List Value → List Value
  | [] => []
  | set :: rest =>
    match db.insertSet set with
    | (db, .ok _) => set :: accepted db rest
    | (db, .error _) => accepted db rest

end Database

/-! ## Tables and objects -/

/-- A profile that a card object describes. -/
def Profile.DescribedBy (p : Profile) (c : Value) : Prop :=
  ∃ cmc counts, CardData.cost c CardData.costFields = .ok cmc ∧
    parseManaCost (c.textAt "manaCost") = .ok counts ∧ p = CardObject.profile c cmc counts

/-- The tables say of each name what its first object says, and have each printing as its
first object has it. -/
structure Mirrors (t : Tables) (objects : List PlacedCard) : Prop where
  described : ∀ name o, firstNamed objects name = some o → (t.profile name).DescribedBy o.card
  unknown : ∀ name, firstNamed objects name = none → t.profile name = .unknown
  printings : ∀ key, (t.printings.find? fun r => r.key == key) =
    (firstOf objects key).map PlacedCard.row
  distinct : t.PrintingsDistinct

namespace Mirrors

variable {t t' : Tables} {objects : List PlacedCard}

theorem empty : Mirrors .empty [] := by
  refine ⟨?_, ?_, fun _ => rfl, List.nodup_nil⟩
  · intro name o h
    cases h
  · intro name _
    have hlabels : (Tables.empty.profile name).labels = fun _ => [] := by
      funext s
      cases s <;> rfl
    rw [Profile.unknown, ← hlabels]
    rfl

theorem of_same (h : Mirrors t objects)
    (hsame : t'.profile = t.profile ∧ t'.printings = t.printings) : Mirrors t' objects := by
  obtain ⟨hprofile, hprintings⟩ := hsame
  refine ⟨?_, ?_, ?_, ?_⟩
  · rw [hprofile]
    exact h.described
  · rw [hprofile]
    exact h.unknown
  · rw [hprintings]
    exact h.printings
  · rw [Tables.PrintingsDistinct, hprintings]
    exact h.distinct

/-- The row of a card is there exactly if there is an object of its name. -/
theorem card_eq_none (h : Mirrors t objects) {name : String} :
    (t.profile name).card = none ↔ firstNamed objects name = none := by
  cases hfirst : firstNamed objects name with
  | none => simp [h.unknown name hfirst, Profile.unknown]
  | some o =>
    obtain ⟨cmc, counts, -, -, hp⟩ := h.described name o hfirst
    simp [hp, CardObject.profile]

theorem firstNamed_append (objects : List PlacedCard) (o : PlacedCard) (name : String) :
    firstNamed (objects ++ [o]) name =
      (firstNamed objects name).or (if o.name = name then some o else none) := by
  rw [firstNamed, List.find?_append]
  by_cases h : o.name = name <;> simp [firstNamed, h]

theorem firstOf_append (objects : List PlacedCard) (o : PlacedCard) (key : PrintingKey) :
    firstOf (objects ++ [o]) key =
      (firstOf objects key).or (if o.key = key then some o else none) := by
  rw [firstOf, List.find?_append]
  by_cases h : o.key = key <;> simp [firstOf, h]

/-- The name of one more object is known from now on, by this object if it was not known
before. -/
theorem profile_append {o : PlacedCard} (hc : o.card.isCardObject = true) (h : Mirrors t objects)
    (hrow : t.addCardRow (.text o.name) o.card = .ok t') :
    t'.printings = t.printings ∧
      (∀ name p, firstNamed (objects ++ [o]) name = some p →
        (t'.profile name).DescribedBy p.card) ∧
      ∀ name, firstNamed (objects ++ [o]) name = none → t'.profile name = .unknown := by
  have hunknown : (t.profile o.name).card = none → t.profile o.name = .unknown :=
    fun hnone => h.unknown o.name (h.card_eq_none.1 hnone)
  have hcases : ((t.profile o.name).card ≠ none ∧ t' = t) ∨
      ((t.profile o.name).card = none ∧
        ∃ cmc counts, CardData.cost o.card CardData.costFields = .ok cmc ∧
          parseManaCost (o.card.textAt "manaCost") = .ok counts ∧
          Tables.Touches o.name (CardObject.profile o.card cmc counts) t t') :=
    Tables.addCardRow_cases hc hunknown hrow
  rcases hcases with ⟨hknown, rfl⟩ | ⟨hnone, cmc, counts, hcmc, hcounts, htouches⟩
  · -- the first object of the name came earlier
    have hfirst : ∀ name, firstNamed (objects ++ [o]) name = firstNamed objects name := by
      intro name
      rw [firstNamed_append]
      by_cases hname : o.name = name
      · subst hname
        obtain ⟨p, hp⟩ := Option.ne_none_iff_exists'.1 (mt h.card_eq_none.2 hknown)
        rw [hp, Option.some_or]
      · rw [if_neg hname, Option.or_none]
    simp only [hfirst]
    exact ⟨trivial, h.described, h.unknown⟩
  · -- this object is the first of its name, and no other name changes
    have hfirst := h.card_eq_none.1 hnone
    have hprofile : ∀ name, name ≠ o.name → t'.profile name = t.profile name := by
      intro name hname
      rw [htouches.profile, Function.update_of_ne hname]
    refine ⟨htouches.printings, ?_, ?_⟩
    · intro name p hp
      rw [firstNamed_append] at hp
      by_cases hname : o.name = name
      · subst hname
        rw [hfirst, if_pos rfl, Option.none_or] at hp
        obtain rfl := Option.some.inj hp
        exact ⟨cmc, counts, hcmc, hcounts, htouches.self⟩
      · rw [if_neg hname, Option.or_none] at hp
        rw [hprofile name (Ne.symm hname)]
        exact h.described name p hp
    · intro name hp
      rw [firstNamed_append] at hp
      by_cases hname : o.name = name
      · rw [if_pos hname, Option.or_eq_none_iff] at hp
        cases hp.2
      · rw [if_neg hname, Option.or_none] at hp
        rw [hprofile name (Ne.symm hname)]
        exact h.unknown name hp

/-- The key of one more object is that of a printing from now on, which is counted if it
was none before. -/
theorem printings_append {o : PlacedCard} {isNew : Bool} (hc : o.card.isCardObject = true)
    (hprintings : ∀ key, (t.printings.find? fun r => r.key == key) =
      (firstOf objects key).map PlacedCard.row)
    (hdistinct : t.PrintingsDistinct)
    (hadded : t.addPrintingRow (.text o.expansion) (.text o.name) o.card = .ok (t', isNew)) :
    t'.profile = t.profile ∧
      (∀ key, (t'.printings.find? fun r => r.key == key) =
        (firstOf (objects ++ [o]) key).map PlacedCard.row) ∧
      t'.PrintingsDistinct ∧
      t'.printings.length = t.printings.length + if isNew then 1 else 0 := by
  obtain ⟨hprofile, hrows⟩ := Tables.addPrintingRow_cases hc hadded
  refine ⟨hprofile, ?_⟩
  rcases hrows with ⟨rfl, hsame, r, hr, hkey⟩ | ⟨rfl, hrows, hfresh⟩
  · -- a printing that is stored has an earlier object
    have hfound : ∃ p, firstOf objects o.key = some p := by
      rw [← Option.isSome_iff_exists, ← Option.isSome_map (f := PlacedCard.row), ← hprintings,
        List.find?_isSome]
      exact ⟨r, hr, beq_iff_eq.2 hkey⟩
    obtain ⟨p, hp⟩ := hfound
    rw [hsame, Tables.PrintingsDistinct, hsame]
    refine ⟨?_, hdistinct, rfl⟩
    intro key
    rw [hprintings, firstOf_append]
    by_cases hk : o.key = key
    · subst hk
      rw [hp, Option.some_or]
    · rw [if_neg hk, Option.or_none]
  · rw [hrows, Tables.PrintingsDistinct, hrows]
    refine ⟨?_, ?_, by simp⟩
    · intro key
      rw [List.find?_append, hprintings, firstOf_append]
      by_cases hk : o.key = key
      · subst hk
        cases firstOf objects o.key <;> simp [PlacedCard.key, PlacedCard.row]
      · have hk' : ¬(CardObject.printing o.expansion o.card).key = key := hk
        simp [hk, hk']
    · rw [List.map_append, List.map_singleton]
      refine List.Nodup.append hdistinct (List.nodup_singleton _) (List.disjoint_singleton.2 ?_)
      rintro hmem
      obtain ⟨r, hr, hkey⟩ := List.mem_map.1 hmem
      exact hfresh r hr hkey

/-- One more card object. -/
theorem card {o : PlacedCard} {isNew : Bool} (hc : o.card.isCardObject = true)
    (h : Mirrors t objects) (hcard : t.addCardData (.text o.expansion) o.card = .ok (t', isNew)) :
    Mirrors t' (objects ++ [o]) ∧
      t'.printings.length = t.printings.length + if isNew then 1 else 0 := by
  unfold Tables.addCardData at hcard
  obtain ⟨name, hname, hcard⟩ := bind_eq_ok.1 hcard
  obtain rfl := name_eq (isPlainCard_of_isCardObject hc) (shaped_eq_ok.1 hname)
  obtain ⟨mid, hmid, hcard⟩ := bind_eq_ok.1 hcard
  obtain ⟨hsame, hdescribed, hunknown⟩ := h.profile_append hc hmid
  have hprintings : ∀ key, (mid.printings.find? fun r => r.key == key) =
      (firstOf objects key).map PlacedCard.row := by
    rw [hsame]
    exact h.printings
  have hdistinct : mid.PrintingsDistinct := by
    rw [Tables.PrintingsDistinct, hsame]
    exact h.distinct
  obtain ⟨hprofile, hfound, hdistinct', hlength⟩ := printings_append hc hprintings hdistinct hcard
  rw [hsame] at hlength
  refine ⟨⟨?_, ?_, hfound, hdistinct'⟩, hlength⟩
  · rw [hprofile]
    exact hdescribed
  · rw [hprofile]
    exact hunknown

/-- Some more card objects of one set. -/
theorem cards {expansion : String} {cards : List Value} {i : Tables.Intake}
    (hcards : ∀ c ∈ cards, c.isCardObject = true) (h : Mirrors t objects)
    (hintake : t.addCards (.text expansion) cards = .ok i) :
    Mirrors i.tables (objects ++ cards.map fun c => ⟨expansion, c⟩) ∧
      i.tables.printings.length = t.printings.length + i.added := by
  -- induction on the cards, with the objects that the tables mirror so far
  induction cards generalizing t objects i with
  | nil =>
    cases hintake
    simpa using h
  | cons c rest ih =>
    obtain ⟨hc, hrest⟩ := List.forall_mem_cons.1 hcards
    unfold Tables.addCards at hintake
    obtain ⟨⟨mid, isNew⟩, hmid, hintake⟩ := bind_eq_ok.1 hintake
    obtain ⟨faces, -, hintake⟩ := bind_eq_ok.1 hintake
    obtain ⟨later, hlater, hintake⟩ := bind_eq_ok.1 hintake
    cases hintake
    obtain ⟨hfirst, hlength⟩ := h.card (o := ⟨expansion, c⟩) hc hmid
    obtain ⟨hall, hlength'⟩ := ih hrest hfirst hlater
    refine ⟨?_, ?_⟩
    · rw [List.map_cons, List.append_cons]
      exact hall
    · rw [hlength', hlength, Nat.add_assoc]

/-- The name and the cards of a set object. -/
theorem of_isSetObject {set : Value} (hset : set.isSetObject = true) :
    (∀ name, setName set = .ok name → name = .text (set.textAt "name")) ∧
      ∀ v, set.item "cards" = .ok v →
        v = .list (set.itemsAt "cards") ∧ ∀ c ∈ set.itemsAt "cards", c.isCardObject = true := by
  rw [Value.isSetObject, Bool.and_eq_true] at hset
  obtain ⟨hname, hcards⟩ := hset
  constructor
  · intro name h
    obtain ⟨_, -, h⟩ := bind_eq_ok.1 h
    exact item_eq_text hname (shaped_eq_ok.1 h)
  · intro v h
    rw [Value.item_eq_ok h] at hcards
    rw [Value.itemsAt_of_item h]
    cases v with
    | list cs => exact ⟨rfl, fun c hc => List.all_eq_true.1 hcards c hc⟩
    | _ => cases hcards

/-- A set that is accepted adds its card objects, and is answered by the number of the new
printings. -/
theorem addSet {set name : Value} {n : Nat} (hset : set.isSetObject = true)
    (h : Mirrors t objects) (hname : setName set = .ok name)
    (hadded : t.addSet name set = .ok (t', n)) :
    Mirrors t' (objects ++ placedCards set) ∧ t'.printings.length = t.printings.length + n := by
  obtain ⟨hread, hcards⟩ := of_isSetObject hset
  obtain rfl := hread name hname
  unfold Tables.addSet at hadded
  obtain ⟨t₁, h₁, hadded⟩ := bind_eq_ok.1 hadded
  obtain ⟨v, hv, hadded⟩ := bind_eq_ok.1 hadded
  obtain ⟨listed, hlisted, hadded⟩ := bind_eq_ok.1 hadded
  obtain ⟨intake, hintake, hadded⟩ := bind_eq_ok.1 hadded
  obtain ⟨t₂, h₂, hadded⟩ := bind_eq_ok.1 hadded
  obtain ⟨rfl, rfl⟩ := Prod.mk.inj (pure_eq_ok.1 hadded)
  obtain ⟨hlist, hobjects⟩ := hcards v (shaped_eq_ok.1 hv)
  rw [hlist] at hlisted
  obtain rfl := Except.ok.inj (shaped_eq_ok.1 hlisted)
  -- neither the row of the set nor the groups of faces say anything of a card
  have hrow := Tables.beside_of_ofCards (Tables.addSetRow_ofCards h₁)
  obtain ⟨hmirrors, hlength⟩ := (h.of_same hrow).cards hobjects hintake
  have hfaces := Tables.beside_of_ofCards (Tables.addAllFaces_ofCards h₂)
  refine ⟨hmirrors.of_same hfaces, ?_⟩
  rw [hfaces.2, hlength, hrow.2]

end Mirrors

namespace Database

/-- A set that is accepted is taken in as a whole. -/
theorem insertSet_ok {db : Database} {set : Value} {n : Nat} (h : (db.insertSet set).2 = .ok n) :
    ∃ name, setName set = .ok name ∧
      db.tables.addSet name set = .ok ((db.insertSet set).1.tables, n) := by
  unfold insertSet at h ⊢
  cases hname : setName set with
  | error e =>
    rw [hname] at h
    cases h
  | ok name =>
    rw [hname] at h
    exact ⟨name, rfl, (transact_ok h).2.1⟩

/-- A set that is refused leaves the database as it was. -/
theorem insertSet_of_error {db : Database} {set : Value} {e : Failure}
    (h : (db.insertSet set).2 = .error e) : (db.insertSet set).1 = db := by
  unfold insertSet at h ⊢
  cases hname : setName set with
  | error e' => rfl
  | ok name =>
    rw [hname] at h
    exact transact_error h

theorem insertSet_refused {db : Database} {set : Value} {e : Failure}
    (h : (db.insertSet set).2 = .error e) : (db.insertSet set).1.tables = db.tables := by
  rw [insertSet_of_error h]

theorem accepted_cons (db : Database) (set : Value) (rest : List Value) :
    db.accepted (set :: rest) =
      match (db.insertSet set).2 with
      | .ok _ => set :: (db.insertSet set).1.accepted rest
      | .error _ => (db.insertSet set).1.accepted rest := by
  rw [accepted]
  cases db.insertSet set with
  | mk after outcome =>
    cases outcome <;> rfl

/-- After any run of set objects the tables are those of the accepted objects. -/
theorem mirrors_afterSets {sets : List Value} (hsets : ∀ set ∈ sets, set.isSetObject = true)
    (db : Database) {objects : List PlacedCard} (h : Mirrors db.tables objects) :
    Mirrors (db.afterSets sets).tables (objects ++ (db.accepted sets).flatMap placedCards) := by
  induction sets generalizing db objects with
  | nil => simpa [afterSets, accepted] using h
  | cons set rest ih =>
    obtain ⟨hset, hrest⟩ := List.forall_mem_cons.1 hsets
    change Mirrors ((db.insertSet set).1.afterSets rest).tables _
    rw [accepted_cons]
    cases houtcome : (db.insertSet set).2 with
    | ok n =>
      obtain ⟨name, hname, hadded⟩ := insertSet_ok houtcome
      have hnext := (h.addSet hset hname hadded).1
      rw [List.flatMap_cons, ← List.append_assoc]
      exact ih hrest _ hnext
    | error e =>
      have hsame := insertSet_refused houtcome
      exact ih hrest _ (hsame ▸ h)

end Database

/-! ## What is known of a card -/

/-- The attributes of a card are those that a card object gives. -/
structure CardDetails.DescribedBy (d : CardDetails) (c : Value) : Prop where
  row : ∃ cmc, CardData.cost c CardData.costFields = .ok cmc ∧
    d.row = ⟨some (CardObject.name c), c.textAt "text", cmc, c.textAt "manaCost"⟩
  mana : ∃ counts, parseManaCost (c.textAt "manaCost") = .ok counts ∧
    d.mana = Text.sortedBy Prod.fst (counts.map fun q => (q.1, (q.2 : Int)))
  colors : d.colors = Text.sorted (CardObject.labels c .color).eraseDups
  colorIdentity : d.colorIdentity = Text.sorted (CardObject.labels c .colorIdentity).eraseDups
  supertypes : d.supertypes = Text.sorted (CardObject.labels c .supertype).eraseDups
  types : d.types = Text.sorted (CardObject.labels c .type).eraseDups
  subtypes : d.subtypes = Text.sorted (CardObject.labels c .subtype).eraseDups
  power : d.power = CardObject.power? c
  loyalty : d.loyalty = CardObject.loyalty? c

/-- What a card is known to be, by the objects that were taken in: its attributes are those
of the first object of its name, and its printings are those of its objects, each as the
first object of its set and number has it. -/
structure CardDetails.FromFirst (d : CardDetails) (objects : List PlacedCard) (name : String) :
    Prop where
  attributes : ∃ o, firstNamed objects name = some o ∧ d.DescribedBy o.card
  keys_nodup : (d.printings.map PrintingRow.key).Nodup
  printings : ∀ r, r ∈ d.printings ↔
    r.card = name ∧ ∃ o, firstOf objects r.key = some o ∧ r = o.row

theorem Mirrors.details {t : Tables} {objects : List PlacedCard} (h : Mirrors t objects)
    {name : String} {d : CardDetails} (hd : t.details? name = some d) :
    d.FromFirst objects name := by
  rw [Tables.details?_eq] at hd
  obtain ⟨row, hrow, rfl⟩ := Option.map_eq_some_iff.1 hd
  obtain ⟨o, ho⟩ : ∃ o, firstNamed objects name = some o := by
    rw [← Option.ne_none_iff_exists', ne_eq, ← h.card_eq_none, hrow]
    exact Option.some_ne_none row
  obtain ⟨cmc, counts, hcmc, hcounts, hp⟩ := h.described name o ho
  rw [hp] at hrow
  have hmem : ∀ r, r ∈ t.printingsOf name ↔ r ∈ t.printings ∧ r.card = name := by
    intro r
    rw [Tables.printingsOf, List.mem_mergeSort, List.mem_filter, beq_iff_eq]
  refine ⟨⟨o, ho, ?_⟩, ?_, ?_⟩
  · simp only [hp]
    exact ⟨⟨cmc, hcmc, (Option.some.inj hrow).symm⟩, ⟨counts, hcounts, rfl⟩, rfl, rfl, rfl, rfl,
      rfl, rfl, rfl⟩
  · have hsorted := (List.mergeSort_perm (t.printings.filter fun r => r.card == name)
      fun a b => Text.listAtMost [a.expansion, a.number] [b.expansion, b.number]).map
        PrintingRow.key
    exact hsorted.nodup_iff.2 (h.distinct.sublist (List.filter_sublist.map _))
  · intro r
    rw [hmem, and_comm]
    refine and_congr_right fun _ => ?_
    -- the only row of a key is the first one that is found
    have hfound : r ∈ t.printings ↔ (t.printings.find? fun x => x.key == r.key) = some r := by
      constructor
      · intro hr
        obtain ⟨x, hx⟩ := Option.isSome_iff_exists.1 (List.find?_isSome
          (p := fun x : PrintingRow => x.key == r.key).2 ⟨r, hr, beq_self_eq_true _⟩)
        have hkey : x.key = r.key := by simpa using List.find?_some hx
        rw [hx, List.inj_on_of_nodup_map h.distinct (List.mem_of_find?_eq_some hx) hr hkey]
      · exact List.mem_of_find?_eq_some
    rw [hfound, h.printings, Option.map_eq_some_iff]
    exact exists_congr fun o => and_congr_right fun _ => eq_comm

/-- After any run of set objects, of which those that are refused leave nothing behind: a
name is stored exactly if some accepted set had an object of that name, by the name of its
face or, if that is missing or empty, its own; what is known of a card is what the first
object of its name said, and its printings are those of all its objects, each as its first
object has it; and each set that is accepted is answered by the number of printings that it
added. -/
theorem cards_of_first_objects {sets : List Value}
    (hsets : ∀ set ∈ sets, set.isSetObject = true) :
    let objects := (Database.empty.accepted sets).flatMap placedCards
    let t := (Database.empty.afterSets sets).tables
    (∀ name, t.hasCard name = true ↔ ∃ o ∈ objects, o.name = name) ∧
      (∀ name, (t.details? name).isSome = t.hasCard name) ∧
      (∀ name d, t.details? name = some d → d.FromFirst objects name) ∧
      ∀ before set after, sets = before ++ set :: after →
        ∀ n, ((Database.empty.afterSets before).insertSet set).2 = .ok n →
          ((Database.empty.afterSets before).insertSet set).1.tables.printings.length =
            (Database.empty.afterSets before).tables.printings.length + n := by
  intro objects t
  have hmirrors : Mirrors t objects := by
    have hrun := Database.mirrors_afterSets hsets .empty Mirrors.empty
    rw [List.nil_append] at hrun
    exact hrun
  have hstored : ∀ name, (t.details? name).isSome = t.hasCard name := by
    intro name
    rw [Bool.eq_iff_iff, Tables.details?, Option.isSome_map, List.find?_isSome, Tables.hasCard,
      List.any_eq_true]
  refine ⟨?_, hstored, fun name d hd => hmirrors.details hd, ?_⟩
  · intro name
    rw [← hstored, Tables.details?_eq, Option.isSome_map, ← Option.ne_none_iff_isSome, ne_eq,
      hmirrors.card_eq_none, firstNamed, List.find?_eq_none]
    simp
  · rintro before set after rfl n haccepted
    have hbefore := Database.mirrors_afterSets
      (fun s hs => hsets s (List.mem_append_left _ hs)) .empty Mirrors.empty
    obtain ⟨name, hname, hadded⟩ := Database.insertSet_ok haccepted
    exact (hbefore.addSet (hsets set (by simp)) hname hadded).2

/-- A card object with a printed power and some types. -/
def sampleCard (number rarity power : String) (types : List Value) : Value :=
  .object [("name", .text "Ornithopter"), ("manaCost", .text "\x7b0\x7d"),
    ("power", .text power), ("toughness", .text "2"), ("number", .text number),
    ("rarity", .text rarity), ("types", .list types)]

/-- Three sets with a card of one name: the second is refused for its first card, which has
no rarity, and the third has the card under a new number and twice under the next one. -/
def sampleSets : List Value :=
  [.object [("name", .text "Antiquities"), ("code", .text "ATQ"),
      ("releaseDate", .text "1994-03-04"),
      ("cards", .list [sampleCard "60" "common" "0" [.text "Artifact", .text "Creature"]])],
    .object [("name", .text "Revised"), ("code", .text "3ED"), ("releaseDate", .text "1994-04-01"),
      ("cards", .list [sampleCard "1" "" "1" []])],
    .object [("name", .text "Mirrodin"), ("code", .text "MRD"),
      ("releaseDate", .text "2003-10-02"),
      ("cards", .list [sampleCard "223" "uncommon" "1" [], sampleCard "224" "rare" "2" [],
        sampleCard "224" "common" "3" []])]]

theorem sampleSets_firstObjects :
    (∀ set ∈ sampleSets, set.isSetObject = true) ∧
      (Database.empty.accepted sampleSets).length = 2 ∧
      (Database.empty.afterSets sampleSets).tables.hasCard "Ornithopter" = true ∧
      ∀ d, (Database.empty.afterSets sampleSets).tables.details? "Ornithopter" = some d →
        d.FromFirst ((Database.empty.accepted sampleSets).flatMap placedCards) "Ornithopter" := by
  have hsets : ∀ set ∈ sampleSets, set.isSetObject = true := by decide +kernel
  exact ⟨hsets, by decide +kernel, by decide +kernel,
    (cards_of_first_objects hsets).2.2.1 "Ornithopter"⟩

end CardArchive
