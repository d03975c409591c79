import CardArchive.Proofs.Store.Coherence
import CardArchive.Proofs.Store.Steps

/-!
# Groups of faces

A group of faces is recorded while a set is taken in, for every card of the set that lists
it, if all its faces are stored by then. The key of its row is the list of its faces in the
order of the card, so each order that is listed gives a row of its own, and a group whose last
face comes in a set in which no card lists it is not recorded at all.

## What this module delivers

* `CardData.Lists`: the cards that list a group under a layout.
* `Tables.groupKeys`: the lists of faces that are recorded.
* `faceRows_complete`, `addFaces_keys`, `addSet_keys`: what one card and one set record.
* `Records` and `groupKeys_afterSets`: what any sets record.
* `groups_of_sets`: the rows of a group, how many they are, and who reports them.
* `reversedSet_twice`: a group that is recorded twice, and one that is not recorded.
-/

set_option autoImplicit false

namespace CardArchive

/-! ## Cards that list a group -/

namespace CardData

/-- Whether a card lists some faces, in this order, under a layout that can be stored. -/
def Lists (card : Value) (faces : List String) : Prop :=
  ∃ names layout l, faces? card = .ok (some names) ∧
    Tables.storedNames 1 names = .ok (faces.map some) ∧ card.memberOf "layout" = .ok layout ∧
    storedText 1 layout = .ok (some l)

/-- Whether a card is stored under a name. -/
def IsNamed (card : Value) (name : String) : Prop :=
  ∃ v, CardData.name card = .ok v ∧ storedText 1 v = .ok (some name)

/-- Whether a card fits a group: if it is one of the faces, it lists the group, and if it lists
the group, then in this order. -/
structure Fits (card : Value) (group : List String) : Prop where
  face : ∀ face ∈ group, IsNamed card face → Lists card group
  order : ∀ order, order.Perm group → Lists card order → order = group

end CardData

/-- A card lists its faces in one order. -/
theorem CardData.Lists.unique {card : Value} {faces faces' : List String}
    (h : Lists card faces) (h' : Lists card faces') : faces = faces' := by
  obtain ⟨names, _, _, hnames, hstored, -, -⟩ := h
  obtain ⟨names', _, _, hnames', hstored', -, -⟩ := h'
  obtain rfl := Option.some.inj (Except.ok.inj (hnames.symm.trans hnames'))
  have hsame : faces.map some = faces'.map some := Except.ok.inj (hstored.symm.trans hstored')
  exact List.map_injective_iff.2 (Option.some_injective _) hsame

/-- A card that lists the group itself fits it. -/
theorem CardData.Lists.fits {card : Value} {group : List String} (h : Lists card group) :
    Fits card group :=
  ⟨fun _ _ _ => h, fun _ _ horder => horder.unique h⟩

namespace Tables

/-- The lists of faces that are recorded. -/
def groupKeys (t : Tables) : List (List String) := t.allGroups.map FaceGroup.cards

/-- The rows with exactly some faces. -/
def groupsOf (t : Tables) (group : List String) : List FaceGroup :=
  t.allGroups.filter fun g => g.cards.isPerm group

section

variable {t t' : Tables} {faces : List String}

/-! ## One row -/

theorem mem_groupKeys : faces ∈ t.groupKeys ↔
    (∃ r ∈ t.pairs, [r.first, r.second] = faces) ∨
      ∃ r ∈ t.triples, [r.first, r.second, r.third] = faces := by
  simp [groupKeys, allGroups]

/-- An insertion adds the key of its row, if the row is complete. -/
theorem keys_insertOrSkip {ρ κ : Type} {f : ρ → κ} {clash : ρ → ρ → Bool} {refers : ρ → Bool}
    {row : Option ρ} {rows result : List ρ} {isNew : Bool}
    (hclash : ∀ a b, clash a b = true ↔ f a = f b)
    (h : insertOrSkip clash refers row rows = .ok (result, isNew)) (k : κ) :
    (∃ r ∈ result, f r = k) ↔ (∃ r ∈ rows, f r = k) ∨ ∃ r ∈ row, f r = k := by
  cases row with
  | none =>
    cases h
    simp
  | some new =>
    rcases insertOrSkip_some h with ⟨-, rfl, htaken⟩ | ⟨-, rfl, -⟩
    · -- the row in the way has the key already
      obtain ⟨b, hb, hsame⟩ := List.any_eq_true.1 htaken
      constructor
      · exact .inl
      · rintro (hk | ⟨r, hr, rfl⟩)
        · exact hk
        · obtain rfl := Option.mem_some.1 hr
          exact ⟨b, hb, ((hclash _ _).1 hsame).symm⟩
    · simp only [List.mem_append, List.mem_singleton, or_and_right, exists_or, Option.mem_some,
        eq_comm]

theorem addPair_keys {a b layout : Option String} {total : Int}
    (h : t.addPair a b layout total = .ok t') :
    faces ∈ t'.groupKeys ↔
      faces ∈ t.groupKeys ∨ [a, b] = faces.map some ∧ layout.isSome = true := by
  obtain ⟨⟨rows, isNew⟩, hrows, h⟩ := bind_eq_ok.1 h
  cases h
  have hkeys := keys_insertOrSkip (f := fun r : PairRow => [r.first, r.second]) (by simp)
    hrows faces
  have hrow : (∃ r ∈ (do pure (PairRow.mk (← a) (← b) (← layout) total) : Option PairRow),
      [r.first, r.second] = faces) ↔ [a, b] = faces.map some ∧ layout.isSome = true := by
    constructor
    · rintro ⟨r, hr, rfl⟩
      obtain ⟨x, ha, hr⟩ := Option.bind_eq_some_iff.1 hr
      obtain ⟨y, hb, hr⟩ := Option.bind_eq_some_iff.1 hr
      obtain ⟨l, hl, hr⟩ := Option.bind_eq_some_iff.1 hr
      cases hr
      rw [ha, hb, hl]
      exact ⟨rfl, rfl⟩
    · rintro ⟨hfaces, hlayout⟩
      obtain ⟨l, rfl⟩ := Option.isSome_iff_exists.1 hlayout
      rcases faces with _ | ⟨x, _ | ⟨y, _ | ⟨z, rest⟩⟩⟩ <;> cases hfaces
      exact ⟨_, rfl, rfl⟩
  rw [mem_groupKeys, mem_groupKeys, hkeys, hrow, or_right_comm]

theorem addTriple_keys {a b c layout : Option String} {total : Int}
    (h : t.addTriple a b c layout total = .ok t') :
    faces ∈ t'.groupKeys ↔
      faces ∈ t.groupKeys ∨ [a, b, c] = faces.map some ∧ layout.isSome = true := by
  obtain ⟨⟨rows, isNew⟩, hrows, h⟩ := bind_eq_ok.1 h
  cases h
  have hkeys := keys_insertOrSkip (f := fun r : TripleRow => [r.first, r.second, r.third])
    (by simp [and_assoc]) hrows faces
  have hrow : (∃ r ∈ (do pure (TripleRow.mk (← a) (← b) (← c) (← layout) total) :
      Option TripleRow), [r.first, r.second, r.third] = faces) ↔
      [a, b, c] = faces.map some ∧ layout.isSome = true := by
    constructor
    · rintro ⟨r, hr, rfl⟩
      obtain ⟨x, ha, hr⟩ := Option.bind_eq_some_iff.1 hr
      obtain ⟨y, hb, hr⟩ := Option.bind_eq_some_iff.1 hr
      obtain ⟨z, hc, hr⟩ := Option.bind_eq_some_iff.1 hr
      obtain ⟨l, hl, hr⟩ := Option.bind_eq_some_iff.1 hr
      cases hr
      rw [ha, hb, hc, hl]
      exact ⟨rfl, rfl⟩
    · rintro ⟨hfaces, hlayout⟩
      obtain ⟨l, rfl⟩ := Option.isSome_iff_exists.1 hlayout
      rcases faces with _ | ⟨x, _ | ⟨y, _ | ⟨z, _ | ⟨w, rest⟩⟩⟩⟩ <;> cases hfaces
      exact ⟨_, rfl, rfl⟩
  rw [mem_groupKeys, mem_groupKeys, hkeys, hrow, or_assoc]

theorem addGroup_keys {names : List (Option String)} {layout : Option String} {total : Int}
    (hcount : names.length = 2 ∨ names.length = 3) (h : t.addGroup names layout total = .ok t') :
    faces ∈ t'.groupKeys ↔
      faces ∈ t.groupKeys ∨ names = faces.map some ∧ layout.isSome = true := by
  rcases names with _ | ⟨a, _ | ⟨b, _ | ⟨c, _ | ⟨d, rest⟩⟩⟩⟩
  · simp at hcount
  · simp at hcount
  · exact addPair_keys h
  · exact addTriple_keys h
  · simp at hcount

/-! ## Keys -/

/-- No name is that of two cards, and no two rows have the same faces in the same order. -/
structure FacesDistinct (t : Tables) : Prop where
  cards : (t.cards.filterMap CardRow.name).Nodup
  groups : t.groupKeys.Nodup

theorem FacesDistinct.empty : Tables.empty.FacesDistinct := ⟨List.nodup_nil, List.nodup_nil⟩

theorem FacesDistinct.insertion (h : t.FacesDistinct) (hstep : Insertion t t') :
    t'.FacesDistinct := by
  obtain ⟨hcards, hgroups⟩ := h
  cases hstep with
  | card r hnew =>
    refine ⟨?_, hgroups⟩
    rw [List.filterMap_append, List.nodup_append_comm]
    cases hname : r.name with
    | none => simpa [hname] using hcards
    | some n =>
      -- an earlier card of this name would have clashed
      have hfresh : n ∉ t.cards.filterMap CardRow.name := by
        intro hmem
        obtain ⟨c, hc, hn⟩ := List.mem_filterMap.1 hmem
        exact List.any_eq_false.1 hnew c hc (by simp [sameKey, hname, hn])
      have hrow : [r].filterMap CardRow.name = [n] := by simp [hname]
      rw [hrow]
      exact List.nodup_cons.2 ⟨hfresh, hcards⟩
  | pair r hnew hstored =>
    refine ⟨hcards, ?_⟩
    have hfresh : [r.first, r.second] ∉ t.groupKeys := by
      rw [mem_groupKeys]
      rintro (⟨b, hb, hsame⟩ | ⟨b, hb, hsame⟩)
      · simp only [List.cons.injEq, and_true] at hsame
        exact List.any_eq_false.1 hnew b hb (by simp [hsame])
      · simp at hsame
    have hinserted : ({ t with pairs := t.pairs ++ [r] } : Tables).groupKeys.Perm
        ([r.first, r.second] :: t.groupKeys) := by
      simp only [groupKeys, allGroups, List.map_append, List.append_assoc, List.map_cons,
        List.map_nil, List.singleton_append]
      exact List.perm_middle
    rw [hinserted.nodup_iff]
    exact List.nodup_cons.2 ⟨hfresh, hgroups⟩
  | triple r hnew hstored =>
    refine ⟨hcards, ?_⟩
    have hfresh : [r.first, r.second, r.third] ∉ t.groupKeys := by
      rw [mem_groupKeys]
      rintro (⟨b, hb, hsame⟩ | ⟨b, hb, hsame⟩)
      · simp at hsame
      · simp only [List.cons.injEq, and_true] at hsame
        exact List.any_eq_false.1 hnew b hb (by simp [hsame])
    have hinserted : ({ t with triples := t.triples ++ [r] } : Tables).groupKeys =
        t.groupKeys ++ [[r.first, r.second, r.third]] := by
      simp [groupKeys, allGroups]
    rw [hinserted, List.nodup_append_comm]
    exact List.nodup_cons.2 ⟨hfresh, hgroups⟩
  | label s r hnew hstored => cases s <;> exact ⟨hcards, hgroups⟩
  | _ => exact ⟨hcards, hgroups⟩

theorem FacesDistinct.grows (h : t.FacesDistinct) (hgrows : t.Grows t') : t'.FacesDistinct :=
  hgrows.preserves (fun _ _ hstep hbefore => hbefore.insertion hstep) h

/-! ## One card -/

/-- As many cards are found under some names as there are names, exactly if these are distinct
names of stored cards. -/
theorem faceRows_complete (ht : t.FacesDistinct) {names : List (Option String)} :
    (t.faceRows names).length = names.length ↔
      ∃ faces : List String, names = faces.map some ∧ faces.Nodup ∧
        ∀ f ∈ faces, t.hasCard f = true := by
  -- the names that are found, each of them once
  let found := (t.faceRows names).filterMap CardRow.name
  have hlength : found.length = (t.faceRows names).length := by
    refine List.filterMap_length_eq_length.2 fun c hc => ?_
    exact (Bool.and_eq_true_iff.1 (List.mem_filter.1 hc).2).1
  have hnodup : found.Nodup := ht.cards.sublist (List.filter_sublist.filterMap _)
  have hmem : ∀ n, n ∈ found ↔ some n ∈ names ∧ t.hasCard n = true := by
    intro n
    simp only [found, faceRows, List.mem_filterMap, List.mem_filter, hasCard, List.any_eq_true,
      Bool.and_eq_true, List.contains_iff_mem, beq_iff_eq]
    constructor
    · rintro ⟨c, ⟨hc, -, hname⟩, hn⟩
      exact ⟨hn ▸ hname, c, hc, hn⟩
    · rintro ⟨hname, c, hc, hn⟩
      exact ⟨c, ⟨hc, by simp [hn], hn ▸ hname⟩, hn⟩
  rw [← hlength]
  constructor
  · intro hall
    have hsub : found.map some ⊆ names := by
      intro x hx
      obtain ⟨n, hn, rfl⟩ := List.mem_map.1 hx
      exact ((hmem n).1 hn).1
    have hperm : (found.map some).Perm names :=
      ((hnodup.map (Option.some_injective _)).subperm hsub).perm_of_length_le
        (by rw [List.length_map, hall])
    obtain ⟨faces, rfl⟩ : names ∈ Set.range (List.map some) := by
      rw [Set.range_list_map]
      intro x hx
      obtain ⟨n, -, rfl⟩ := List.mem_map.1 (hperm.mem_iff.2 hx)
      exact ⟨n, rfl⟩
    have hfaces := (List.map_perm_map_iff (Option.some_injective _)).1 hperm
    exact ⟨faces, rfl, hfaces.nodup_iff.1 hnodup,
      fun f hf => ((hmem f).1 (hfaces.mem_iff.2 hf)).2⟩
  · rintro ⟨faces, rfl, hdistinct, hstored⟩
    have hfaces : found.Perm faces := by
      refine (List.perm_ext_iff_of_nodup hnodup hdistinct).2 fun n => ?_
      rw [hmem, List.mem_map_of_injective (Option.some_injective _)]
      exact and_iff_left_of_imp (hstored n)
    rw [hfaces.length_eq, List.length_map]

theorem length_storedNames {names : List Value} {position : Nat} {stored : List (Option String)}
    (h : storedNames position names = .ok stored) : stored.length = names.length := by
  induction names generalizing position stored with
  | nil =>
    cases h
    rfl
  | cons v rest ih =>
    obtain ⟨first, -, h⟩ := bind_eq_ok.1 h
    obtain ⟨others, hothers, h⟩ := bind_eq_ok.1 h
    cases h
    rw [List.length_cons, List.length_cons, ih hothers]

/-- A card records the group that it lists, if all faces are distinct and stored. -/
theorem addFaces_keys (ht : t.FacesDistinct) {card : Value} {names : List Value}
    (hnames : CardData.faces? card = .ok (some names)) (h : t.addFaces card names = .ok t')
    (group : List String) :
    group ∈ t'.groupKeys ↔ group ∈ t.groupKeys ∨
      CardData.Lists card group ∧ group.Nodup ∧ ∀ f ∈ group, t.hasCard f = true := by
  obtain ⟨layout, stored, hlayout, -, hcount, hstored, hcases⟩ := addFaces_inserts h
  rw [← length_storedNames hstored] at hcount hcases
  have hlists : CardData.Lists card group ↔
      stored = group.map some ∧ ∃ l, storedText 1 layout = .ok (some l) := by
    constructor
    · rintro ⟨names', layout', l, hnames', hstored', hlayout', hl⟩
      obtain rfl := Option.some.inj (Except.ok.inj (hnames.symm.trans hnames'))
      obtain rfl := Except.ok.inj (hlayout.symm.trans hlayout')
      exact ⟨Except.ok.inj (hstored.symm.trans hstored'), l, hl⟩
    · rintro ⟨rfl, l, hl⟩
      exact ⟨names, layout, l, hnames, hstored, hlayout, hl⟩
  rw [hlists]
  rcases hcases with ⟨hmissing, rfl⟩ | ⟨hall, l, total, hl, hgroup⟩
  · -- a face is missing or listed twice, so nothing is recorded
    refine ⟨.inl, ?_⟩
    rintro (hgroup | ⟨⟨hgroup, -⟩, hnodup, hcards⟩)
    · exact hgroup
    · exact absurd ((faceRows_complete ht).2 ⟨group, hgroup, hnodup, hcards⟩) hmissing
  · obtain ⟨faces, rfl, hnodup, hcards⟩ := (faceRows_complete ht).1 hall
    rw [addGroup_keys hcount hgroup]
    have hsame : faces.map some = group.map some ↔ faces = group :=
      (List.map_injective_iff.2 (Option.some_injective _)).eq_iff
    rw [hsame, storedText_place hl 1]
    refine or_congr_right ⟨?_, ?_⟩
    · rintro ⟨rfl, hlayout⟩
      obtain ⟨l, rfl⟩ := Option.isSome_iff_exists.1 hlayout
      exact ⟨⟨rfl, l, rfl⟩, hnodup, hcards⟩
    · rintro ⟨⟨rfl, l', hl'⟩, -⟩
      exact ⟨rfl, by rw [Except.ok.inj hl']; rfl⟩

theorem addAllFaces_keys (ht : t.FacesDistinct) {groups : List (Value × List Value)}
    (hgroups : ∀ g ∈ groups, CardData.faces? g.1 = .ok (some g.2))
    (h : t.addAllFaces groups = .ok t') (group : List String) :
    group ∈ t'.groupKeys ↔ group ∈ t.groupKeys ∨
      (∃ g ∈ groups, CardData.Lists g.1 group) ∧ group.Nodup ∧
        ∀ f ∈ group, t.hasCard f = true := by
  induction groups generalizing t with
  | nil =>
    cases h
    simp
  | cons g rest ih =>
    obtain ⟨card, names⟩ := g
    obtain ⟨hnames, hrest⟩ := List.forall_mem_cons.1 hgroups
    unfold addAllFaces at h
    obtain ⟨mid, hmid, h⟩ := bind_eq_ok.1 h
    -- a group brings no card, so the later ones meet the same cards
    have hcards : ∀ f, mid.hasCard f = t.hasCard f := by
      intro f
      rw [hasCard, hasCard, cards_of_ofCards (addFaces_ofCards hmid)]
    rw [ih (ht.grows (addFaces_grows hmid)) hrest h, addFaces_keys ht hnames hmid,
      List.exists_mem_cons_iff, or_and_right, or_assoc]
    simp only [hcards]

/-! ## One set -/

/-- The cards with several faces are those that list some. -/
theorem addCards_faces {expansion : Value} {cards : List Value} {i : Intake}
    (h : t.addCards expansion cards = .ok i) (g : Value × List Value) :
    g ∈ i.faces ↔ g.1 ∈ cards ∧ CardData.faces? g.1 = .ok (some g.2) := by
  induction cards generalizing t i with
  | nil =>
    cases h
    simp
  | cons card rest ih =>
    obtain ⟨mid, isNew, faces, later, -, hfaces, hlater, -, hall⟩ := addCards_steps h
    obtain ⟨c, names⟩ := g
    rw [hall, List.mem_append, ih hlater, List.mem_cons, or_and_right]
    refine or_congr_left ?_
    constructor
    · intro hmem
      obtain ⟨names', rfl, hsame⟩ := Option.map_eq_some_iff.1 (Option.mem_toList.1 hmem)
      cases hsame
      exact ⟨rfl, hfaces⟩
    · rintro ⟨rfl, hread⟩
      obtain rfl := Except.ok.inj (hfaces.symm.trans hread)
      exact Option.mem_toList.2 rfl

theorem addSetRow_keys {name set : Value} (h : t.addSetRow name set = .ok t') :
    t'.groupKeys = t.groupKeys := by
  obtain ⟨_, _, _, _, _, _, mid, -, -, -, -, -, hrow, hblock⟩ := addSetRow_inserts h
  obtain ⟨⟨rows, isNew⟩, -, hrow⟩ := bind_eq_ok.1 hrow
  cases hrow
  rcases hblock with ⟨-, rfl⟩ | ⟨-, b, -, hblock⟩
  · rfl
  · obtain ⟨⟨rows, isNew⟩, -, hblock⟩ := bind_eq_ok.1 hblock
    cases hblock
    rfl

/-- A set records the groups that its cards list and whose faces are all stored when its cards
are in. -/
theorem addSet_keys (ht : t.FacesDistinct) {name set : Value} {n : Nat}
    (h : t.addSet name set = .ok (t', n)) (group : List String) :
    group ∈ t'.groupKeys ↔ group ∈ t.groupKeys ∨
      (∃ card ∈ set.itemsAt "cards", CardData.Lists card group) ∧ group.Nodup ∧
        ∀ f ∈ group, t'.hasCard f = true := by
  obtain ⟨mid, intake, hrow, hintake, hlast⟩ := addSet_steps h
  have hkeys : intake.tables.groupKeys = t.groupKeys := by
    have hsame := congrArg groupKeys (addCards_withoutCards hintake)
    rw [← addSetRow_keys hrow]
    exact hsame
  have hcards : ∀ f, t'.hasCard f = intake.tables.hasCard f := by
    intro f
    rw [hasCard, hasCard, cards_of_ofCards (addAllFaces_ofCards hlast)]
  have hdistinct := (ht.grows (addSetRow_grows hrow)).grows (addCards_grows hintake)
  have hlists : (∃ g ∈ intake.faces, CardData.Lists g.1 group) ↔
      ∃ card ∈ set.itemsAt "cards", CardData.Lists card group := by
    constructor
    · rintro ⟨g, hg, hlists⟩
      exact ⟨g.1, ((addCards_faces hintake g).1 hg).1, hlists⟩
    · rintro ⟨card, hcard, hlists⟩
      obtain ⟨names, layout, l, hnames, hrest⟩ := hlists
      exact ⟨(card, names), (addCards_faces hintake _).2 ⟨hcard, hnames⟩,
        names, layout, l, hnames, hrest⟩
  rw [addAllFaces_keys hdistinct (fun g hg => ((addCards_faces hintake g).1 hg).2) hlast, hkeys,
    hlists]
  simp only [hcards]

/-- A card that is stored with another one was stored before, or is that one. -/
theorem addCardData_named {expansion card : Value} {isNew : Bool}
    (h : t.addCardData expansion card = .ok (t', isNew)) {name : String}
    (hname : t'.hasCard name = true) : t.hasCard name = true ∨ CardData.IsNamed card name := by
  obtain ⟨v, mid, hv, hrow, hprinting⟩ := addCardData_steps h
  obtain ⟨_, _, _, _, _, _, _, _, _, -, -, -, -, -, -, hprinting⟩ :=
    addPrintingRow_inserts hprinting
  obtain ⟨⟨printings, new⟩, -, hprinting⟩ := bind_eq_ok.1 hprinting
  cases hprinting
  obtain ⟨_, _, c, text, cmc, cost, row, _, -, -, hc, -, -, hrow, hdetails⟩ :=
    addCardRow_inserts hrow
  obtain ⟨⟨cards, newCard⟩, hrows, hrow⟩ := bind_eq_ok.1 hrow
  cases hrow
  have hstored : cards.any (fun r => r.name == some name) = true := by
    rcases hdetails with ⟨-, hdetails⟩ | ⟨-, rfl⟩
    · rwa [hasCard, addDetails_cards hdetails] at hname
    · exact hname
  obtain ⟨r, hr, hsame⟩ := List.any_eq_true.1 hstored
  rcases insertOrSkip_eq_ok hrows with ⟨-, rfl⟩ | ⟨-, new, hnew, -, -, rfl⟩
  · exact .inl (List.any_eq_true.2 ⟨r, hr, hsame⟩)
  · rcases List.mem_append.1 hr with hr | hr
    · exact .inl (List.any_eq_true.2 ⟨r, hr, hsame⟩)
    · -- the row that is new has the name of the card
      obtain rfl := List.mem_singleton.1 hr
      obtain ⟨_, -, hnew⟩ := Option.bind_eq_some_iff.1 hnew
      obtain ⟨_, -, hnew⟩ := Option.bind_eq_some_iff.1 hnew
      cases hnew
      obtain rfl := eq_of_beq hsame
      exact .inr ⟨v, hv, hc⟩

theorem addCards_named {expansion : Value} {cards : List Value} {i : Intake}
    (h : t.addCards expansion cards = .ok i) {name : String}
    (hname : i.tables.hasCard name = true) :
    t.hasCard name = true ∨ ∃ card ∈ cards, CardData.IsNamed card name := by
  induction cards generalizing t i with
  | nil =>
    cases h
    exact .inl hname
  | cons card rest ih =>
    obtain ⟨mid, isNew, faces, later, hfirst, -, hlater, htables, -⟩ := addCards_steps h
    rw [htables] at hname
    rw [List.exists_mem_cons_iff, ← or_assoc]
    exact (ih hlater hname).imp_left (addCardData_named hfirst)

/-- A card that is stored after a set was stored before, or is one of the set. -/
theorem addSet_named {name set : Value} {n : Nat} (h : t.addSet name set = .ok (t', n))
    {card : String} (hcard : t'.hasCard card = true) :
    t.hasCard card = true ∨ ∃ c ∈ set.itemsAt "cards", CardData.IsNamed c card := by
  obtain ⟨mid, intake, hrow, hintake, hlast⟩ := addSet_steps h
  rw [hasCard, cards_of_ofCards (addAllFaces_ofCards hlast)] at hcard
  have hcases := addCards_named hintake hcard
  rw [hasCard, cards_of_ofCards (addSetRow_ofCards hrow)] at hcases
  exact hcases

end

end Tables

/-! ## Any sets -/

/-- Whether some set of a run records a group: it is accepted, one of its cards lists the group,
and all faces of the group are stored when it is in. -/
inductive Records (group : List String) : Database → List Value → Prop
  | here {db : Database} {set : Value} {rest : List Value} {n : Nat}
      (htaken : (db.insertSet set).2 = .ok n)
      (hlists : ∃ card ∈ set.itemsAt "cards", CardData.Lists card group)
      (hstored : ∀ f ∈ group, (db.insertSet set).1.tables.hasCard f = true) :
      Records group db (set :: rest)
  | later {db : Database} {set : Value} {rest : List Value}
      (hlater : Records group (db.insertSet set).1 rest) : Records group db (set :: rest)

namespace Database

/-- What any sets record: the groups that were there, and those that one of the sets records. -/
theorem groupKeys_afterSets {db : Database} (hdb : db.tables.FacesDistinct) (sets : List Value)
    {group : List String} (hgroup : group.Nodup) :
    group ∈ (db.afterSets sets).tables.groupKeys ↔
      group ∈ db.tables.groupKeys ∨ Records group db sets := by
  -- from any database, as each set meets what those before it have recorded
  induction sets generalizing db with
  | nil =>
    refine ⟨.inl, ?_⟩
    rintro (hbefore | hrecords)
    · exact hbefore
    · cases hrecords
  | cons set rest ih =>
    have hstep : (db.insertSet set).1.tables.FacesDistinct := by
      rcases db.insertSet_cases set with hsame | ⟨name, n, t, -, hadded, hsame⟩
      · rw [hsame]
        exact hdb
      · rw [hsame]
        exact hdb.grows (Tables.addSet_grows hadded)
    change group ∈ ((db.insertSet set).1.afterSets rest).tables.groupKeys ↔ _
    rw [ih hstep]
    cases houtcome : (db.insertSet set).2 with
    | error e =>
      -- a set that is refused changes nothing, and so records nothing
      rw [insertSet_refused houtcome]
      refine or_congr_right ⟨.later, fun hrecords => ?_⟩
      cases hrecords with
      | here htaken => rw [houtcome] at htaken; cases htaken
      | later hlater => exact hlater
    | ok n =>
      obtain ⟨name, -, hadded⟩ := insertSet_ok houtcome
      rw [Tables.addSet_keys hdb hadded, or_assoc]
      refine or_congr_right ⟨?_, fun hrecords => ?_⟩
      · rintro (⟨hlists, -, hstored⟩ | hlater)
        · exact .here houtcome hlists hstored
        · exact .later hlater
      · cases hrecords with
        | here _ hlists hstored => exact .inl ⟨hlists, hgroup, hstored⟩
        | later hlater => exact .inr hlater

/-- A group that is recorded is listed by a card of an accepted set. -/
theorem accepted_of_records {db : Database} {sets : List Value} {group : List String}
    (h : Records group db sets) :
    ∃ set ∈ db.accepted sets, ∃ card ∈ set.itemsAt "cards", CardData.Lists card group := by
  induction h with
  | @here db set rest n htaken hlists hstored =>
    rw [accepted_cons, htaken]
    exact ⟨set, List.mem_cons_self, hlists⟩
  | @later db set rest hlater ih =>
    obtain ⟨found, hfound, hlists⟩ := ih
    rw [accepted_cons]
    cases (db.insertSet set).2 with
    | error e => exact ⟨found, hfound, hlists⟩
    | ok n => exact ⟨found, List.mem_cons_of_mem _ hfound, hlists⟩

/-- A group is recorded by the set that brings its last face, if that face lists it. -/
theorem records_of_stored {db : Database} {sets : List Value} {group : List String}
    (hfaces : ∀ set ∈ db.accepted sets, ∀ card ∈ set.itemsAt "cards", ∀ face ∈ group,
      CardData.IsNamed card face → CardData.Lists card group)
    (hbefore : ¬∀ face ∈ group, db.tables.hasCard face = true)
    (hafter : ∀ face ∈ group, (db.afterSets sets).tables.hasCard face = true) :
    Records group db sets := by
  induction sets generalizing db with
  | nil => exact absurd hafter hbefore
  | cons set rest ih =>
    rw [accepted_cons] at hfaces
    by_cases hnow : ∀ face ∈ group, (db.insertSet set).1.tables.hasCard face = true
    · -- this set has brought the last face, which lists the group
      cases houtcome : (db.insertSet set).2 with
      | error e =>
        rw [insertSet_refused houtcome] at hnow
        exact absurd hnow hbefore
      | ok n =>
        rw [houtcome] at hfaces
        obtain ⟨face, hface, hnew⟩ := not_forall₂.1 hbefore
        obtain ⟨name, -, hadded⟩ := insertSet_ok houtcome
        obtain hold | ⟨card, hcard, hnamed⟩ := Tables.addSet_named hadded (hnow face hface)
        · exact absurd hold hnew
        · exact .here houtcome
            ⟨card, hcard, hfaces set List.mem_cons_self card hcard face hface hnamed⟩ hnow
    · refine .later (ih ?_ hnow hafter)
      intro later hlater
      cases houtcome : (db.insertSet set).2 with
      | error e =>
        rw [houtcome] at hfaces
        exact hfaces later hlater
      | ok n =>
        rw [houtcome] at hfaces
        exact hfaces later (List.mem_cons_of_mem _ hlater)

end Database

/-! ## The rows of a group -/

namespace Tables

variable {t : Tables} {group : List String}

theorem mem_groupsOf {order : List String} :
    order ∈ (t.groupsOf group).map FaceGroup.cards ↔
      order.Perm group ∧ order ∈ t.groupKeys := by
  simp only [groupsOf, groupKeys, List.mem_map, List.mem_filter, List.isPerm_iff]
  constructor
  · rintro ⟨g, ⟨hg, hperm⟩, rfl⟩
    exact ⟨hperm, g, hg, rfl⟩
  · rintro ⟨hperm, g, hg, rfl⟩
    exact ⟨g, ⟨hg, hperm⟩, rfl⟩

theorem FacesDistinct.groupsOf (ht : t.FacesDistinct) (group : List String) :
    ((t.groupsOf group).map FaceGroup.cards).Nodup :=
  ht.groups.sublist (List.filter_sublist.map _)

/-- Each face of a group reports all its rows. -/
theorem faceGroups_perm {face : String} (hface : face ∈ group) :
    ((t.faceGroups face).filter fun g => g.cards.isPerm group).Perm (t.groupsOf group) := by
  refine List.Perm.of_eq ?_
  rw [faceGroups, List.filter_filter, Tables.groupsOf]
  refine List.filter_congr fun g _ => ?_
  cases hperm : g.cards.isPerm group with
  | false => rfl
  | true =>
    have hmem := (List.isPerm_iff.1 hperm).mem_iff.2 hface
    simpa using hmem

end Tables

/-- A list without repetition has one element exactly if there is only one thing in it. -/
theorem length_eq_one_of_nodup {α : Type} {xs : List α} (hxs : xs.Nodup) :
    xs.length = 1 ↔ ∃! x, x ∈ xs := by
  rw [List.length_eq_one_iff]
  constructor
  · rintro ⟨x, rfl⟩
    exact ⟨x, List.mem_singleton_self x, fun y hy => List.mem_singleton.1 hy⟩
  · rintro ⟨x, hx, hall⟩
    refine ⟨x, List.perm_singleton.1 ?_⟩
    refine (List.perm_ext_iff_of_nodup hxs (List.nodup_singleton x)).2 fun y => ?_
    rw [List.mem_singleton]
    exact ⟨hall y, fun hy => hy ▸ hx⟩

/-- The rows of a group of distinct faces after any sets. There is one for each order of the
faces in which some set records the group, that is, in which a card of the set lists it while
all faces are stored when the set is in; so there is exactly one if there is one such order.
This is so once all faces are stored if every card that is stored under one of them lists the
group, and no card lists it in another order. Each face reports the rows, each once. -/
theorem groups_of_sets (sets : List Value) {group : List String} (hgroup : group.Nodup) :
    let t := (Database.empty.afterSets sets).tables
    ((t.groupsOf group).map FaceGroup.cards).Nodup ∧
      (∀ order, order ∈ (t.groupsOf group).map FaceGroup.cards ↔
        order.Perm group ∧ Records order .empty sets) ∧
      ((t.groupsOf group).length = 1 ↔
        ∃! order, order.Perm group ∧ Records order .empty sets) ∧
      (∀ face ∈ group, ((t.faceGroups face).filter fun g => g.cards.isPerm group).Perm
        (t.groupsOf group)) ∧
      (group ≠ [] → (∀ face ∈ group, t.hasCard face = true) →
        (∀ set ∈ Database.empty.accepted sets, ∀ card ∈ set.itemsAt "cards",
          CardData.Fits card group) → (t.groupsOf group).length = 1) := by
  intro t
  have hdistinct : t.FacesDistinct :=
    Tables.FacesDistinct.empty.grows (Database.empty.grows_afterSets sets)
  have hnodup := hdistinct.groupsOf group
  have horders : ∀ order, order ∈ (t.groupsOf group).map FaceGroup.cards ↔
      order.Perm group ∧ Records order .empty sets := by
    intro order
    rw [Tables.mem_groupsOf]
    refine and_congr_right fun hperm => ?_
    rw [Database.groupKeys_afterSets .empty sets (hperm.nodup_iff.2 hgroup)]
    exact or_iff_right List.not_mem_nil
  have hone : (t.groupsOf group).length = 1 ↔
      ∃! order, order.Perm group ∧ Records order .empty sets := by
    rw [← List.length_map FaceGroup.cards, length_eq_one_of_nodup hnodup]
    simp only [horders]
  refine ⟨hnodup, horders, hone, fun face hface => Tables.faceGroups_perm hface, ?_⟩
  intro hne hstored hfits
  -- at the start no face is stored, so some set brings the last one
  have hnone : ¬∀ face ∈ group, Database.empty.tables.hasCard face = true := by
    obtain ⟨face, rest, rfl⟩ := List.exists_cons_of_ne_nil hne
    intro hall
    exact Bool.false_ne_true (hall face List.mem_cons_self)
  have hrecords : Records group .empty sets := Database.records_of_stored
    (fun set hset card hcard => (hfits set hset card hcard).face) hnone hstored
  refine hone.2 ⟨group, ⟨List.Perm.refl group, hrecords⟩, ?_⟩
  rintro order ⟨hperm, hother⟩
  obtain ⟨set, hset, card, hcard, hlists⟩ := Database.accepted_of_records hother
  exact (hfits set hset card hcard).order order hperm hlists

/-- The two halves of a card list each other in one order, and make one row. -/
theorem splitSet_group :
    ["Fire", "Ice"].Nodup ∧ (Database.empty.insertSet splitSet).2 = .ok 2 ∧
      let t := (Database.empty.afterSets [splitSet]).tables
      (t.groupsOf ["Fire", "Ice"]).length = 1 ∧
        ((t.faceGroups "Ice").filter fun g => g.cards.isPerm ["Fire", "Ice"]).length = 1 := by
  have hnodup : ["Fire", "Ice"].Nodup := by decide
  have htaken : (Database.empty.insertSet splitSet).2 = .ok 2 := by decide +kernel
  obtain ⟨-, -, -, hreports, hall⟩ := groups_of_sets [splitSet] hnodup
  have hone := hall (List.cons_ne_nil _ _) (by decide +kernel) <| by
    rw [Database.accepted_cons, htaken]
    refine List.forall_mem_singleton.2 (List.forall_mem_cons.2 ⟨?_, List.forall_mem_singleton.2 ?_⟩)
    · exact CardData.Lists.fits ⟨_, _, _, rfl, rfl, rfl, rfl⟩
    · exact CardData.Lists.fits ⟨_, _, _, rfl, rfl, rfl, rfl⟩
  refine ⟨hnodup, htaken, hone, ?_⟩
  rw [(hreports "Ice" (by decide)).length_eq]
  exact hone

/-- A card of a set of Fire and Ice, with the faces that it lists. -/
def halfCard (name number : String) (faces : List Value) : Value :=
  .object [("name", .text name), ("names", .list faces), ("layout", .text "split"),
    ("number", .text number), ("rarity", .text "uncommon")]

/-- A set with two halves, each of which lists itself first. -/
def reversedSet : Value :=
  .object [("name", .text "Apocalypse"), ("code", .text "APC"), ("releaseDate", .text "2001-06-04"),
    ("cards", .list [halfCard "Fire" "128a" [.text "Fire", .text "Ice"],
      halfCard "Ice" "128b" [.text "Ice", .text "Fire"]])]

/-- Two sets with a half each, of which only the first lists the group. -/
def lateSets : List Value :=
  [.object [("name", .text "Apocalypse"), ("code", .text "APC"),
      ("releaseDate", .text "2001-06-04"),
      ("cards", .list [halfCard "Fire" "128a" [.text "Fire", .text "Ice"]])],
    .object [("name", .text "Dissension"), ("code", .text "DIS"),
      ("releaseDate", .text "2006-05-05"), ("cards", .list [halfCard "Ice" "128b" []])]]

/-- Halves in two orders make two rows, and both are reported of each; a half that comes late
and lists nothing makes none, although both are then stored. -/
theorem reversedSet_twice :
    let t := (Database.empty.afterSets [reversedSet]).tables
    let u := (Database.empty.afterSets lateSets).tables
    (Database.empty.insertSet reversedSet).2 = .ok 2 ∧
      (t.groupsOf ["Fire", "Ice"]).map FaceGroup.cards = [["Fire", "Ice"], ["Ice", "Fire"]] ∧
      (t.faceGroups "Fire").length = 2 ∧
      (u.hasCard "Fire" && u.hasCard "Ice") = true ∧ u.groupsOf ["Fire", "Ice"] = [] := by
  intro t u
  exact ⟨by decide +kernel, by decide +kernel, by decide +kernel, by decide +kernel,
    by decide +kernel⟩

end CardArchive
