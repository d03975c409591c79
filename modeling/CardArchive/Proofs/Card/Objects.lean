import CardArchive.Proofs.Outcome
import CardArchive.Store.Ingest

/-!
# Card objects

Sets arrive as values of any shape. The published ones have fields of known types: names,
costs and statistics are texts, colors and types are lists of texts. What is read of such
an object can be said without looking at its shape again.

## What this module delivers

* `Value.isCardObject`, `Value.isSetObject`: the objects with fields of these types.
* `Value.isPlainCard`: the cards of which at least the name and the details have them.
* `Value.textAt`, `Value.textsAt`: the text and the texts in a field.
* `CardObject.name`, `CardObject.labels`, `CardObject.power?`, `CardObject.loyalty?`: what a
  card object says of its card.
* `name_eq`, `textField_eq`, `labels_eq`: the readers of cards read exactly this.
-/

set_option autoImplicit false

namespace CardArchive

/-! ## Fields of known types -/

namespace Value

/-- The text that a value is. -/
def text? : Value → Option String
  | text s => some s
  | _ => none

/-- The items of a list, none of another value. -/
def items : Value → List Value
  | list xs => xs
  | _ => []

/-- The text in a field, if there is one. -/
def textAt? (v : Value) (field : String) : Option String := (v.field? field).bind text?

/-- The text in a field, empty if there is none. -/
def textAt (v : Value) (field : String) : String := (v.textAt? field).getD ""

/-- The items of the list in a field, none without a list. -/
def itemsAt (v : Value) (field : String) : List Value := ((v.field? field).map items).getD []

/-- The texts in the list in a field. -/
def textsAt (v : Value) (field : String) : List String := (v.itemsAt field).filterMap text?

/-- Whether a value is a list of texts. -/
def areTexts : Value → Bool
  | list xs => xs.all fun x => x.text?.isSome
  | _ => false

/-- Whether a field holds a text, if anything. -/
def hasText (v : Value) (field : String) : Bool :=
  (v.field? field).all fun w => w.isNull || w.text?.isSome

/-- Whether a field holds a list of texts, if anything. -/
def hasTexts (v : Value) (field : String) : Bool :=
  (v.field? field).all fun w => w.isNull || w.areTexts

/-- The fields of a card that hold texts. -/
def cardTexts : List String :=
  ["faceName", "text", "manaCost", "number", "rarity", "flavorText", "artist", "power",
    "toughness", "loyalty"]

/-- The fields of a card that hold lists of texts. -/
def cardLists : List String := ["colors", "colorIdentity", "supertypes", "types", "subtypes"]

/-- Whether a value has the fields of a card with their types. -/
def isCardObject (v : Value) : Bool :=
  ((v.field? "name").all fun w => w.text?.isSome) && cardTexts.all v.hasText &&
    cardLists.all v.hasTexts

/-- The fields with texts that the details of a card are read from. -/
def detailTexts : List String := ["faceName", "manaCost", "power", "toughness", "loyalty"]

/-- Whether the name and the details of a card have their types, if nothing else has. -/
def isPlainCard (v : Value) : Bool :=
  ((v.field? "name").all fun w => w.text?.isSome) && detailTexts.all v.hasText &&
    cardLists.all v.hasTexts

/-- Whether a value is a list of cards. -/
def areCards : Value → Bool
  | list xs => xs.all isCardObject
  | _ => false

/-- Whether a value has the fields of a set with their types. -/
def isSetObject (v : Value) : Bool :=
  ((v.field? "name").all fun w => w.text?.isSome) && (v.field? "cards").all areCards

theorem text?_eq_some {v : Value} {s : String} : v.text? = some s ↔ v = text s := by
  cases v <;> simp [text?]

theorem memberOf_eq_ok {v w : Value} {field : String} (h : v.memberOf field = .ok w) :
    w = (v.field? field).getD null := by
  cases v with
  | object fs =>
    obtain rfl := Except.ok.inj h
    rfl
  | _ => cases h

theorem item_eq_ok {v w : Value} {field : String} (h : v.item field = .ok w) :
    v.field? field = some w := by
  cases v with
  | object fs =>
    rw [field?]
    cases hlookup : lookup field fs with
    | none => simp [item, hlookup] at h
    | some u => simpa [item, hlookup] using h
  | _ => cases h

/-- The items in a field that is there. -/
theorem itemsAt_of_item {v w : Value} {field : String} (h : v.item field = .ok w) :
    v.itemsAt field = w.items := by
  rw [itemsAt, item_eq_ok h]
  rfl

/-- What is listed of a value are the items of a list, or else texts: the characters of a
text and the names of an object. -/
theorem elements_cases {v : Value} {xs : List Value} (h : v.elements = .ok xs) :
    xs = v.items ∨ v.items = [] ∧ ∀ x ∈ xs, ∃ s, x = text s := by
  cases v with
  | list ys => exact .inl (Except.ok.inj h).symm
  | text s =>
    obtain rfl := Except.ok.inj h
    refine .inr ⟨rfl, fun x hx => ?_⟩
    obtain ⟨c, -, rfl⟩ := List.mem_map.1 hx
    exact ⟨_, rfl⟩
  | object fs =>
    obtain rfl := Except.ok.inj h
    refine .inr ⟨rfl, fun x hx => ?_⟩
    obtain ⟨f, -, rfl⟩ := List.mem_map.1 hx
    exact ⟨_, rfl⟩
  | _ => cases h

/-- What a field of texts can hold. -/
theorem hasText_cases {v : Value} {field : String} (h : v.hasText field = true) :
    (v.textAt? field = none ∧ (v.field? field).getD null = null) ∨
      ∃ s, v.textAt? field = some s ∧ (v.field? field).getD null = text s := by
  unfold hasText at h
  unfold textAt?
  cases hfield : v.field? field with
  | none => exact .inl ⟨rfl, rfl⟩
  | some w =>
    rw [hfield] at h
    cases w with
    | null => exact .inl ⟨rfl, rfl⟩
    | text s => exact .inr ⟨s, rfl, rfl⟩
    | _ => cases h

/-- A list of texts is the list of its texts. -/
theorem map_text_filterMap {xs : List Value} (h : xs.all (fun x => x.text?.isSome) = true) :
    (xs.filterMap text?).map text = xs := by
  induction xs with
  | nil => rfl
  | cons x xs ih =>
    rw [List.all_cons, Bool.and_eq_true] at h
    obtain ⟨s, hs⟩ := Option.isSome_iff_exists.1 h.1
    obtain rfl := text?_eq_some.1 hs
    rw [List.filterMap_cons_some hs, List.map_cons, ih h.2]

end Value

/-! ## What a card object says -/

/-- The field of a card with the labels of a table. -/
def Side.field : Side → String
  | .color => "colors"
  | .colorIdentity => "colorIdentity"
  | .supertype => "supertypes"
  | .type => "types"
  | .subtype => "subtypes"

/-- The labels of a card that has none in its field. -/
def Side.fallback : Side → List String
  | .color | .colorIdentity => ["C"]
  | .supertype | .type | .subtype => []

namespace CardObject

/-- The name that a card is stored under: that of its face, if one is given. -/
def name (c : Value) : String :=
  if c.textAt "faceName" = "" then c.textAt "name" else c.textAt "faceName"

/-- The labels of a card. -/
def labels (c : Value) (s : Side) : List String :=
  if c.textsAt s.field = [] then s.fallback else c.textsAt s.field

/-- Power and toughness of a card that has both. -/
def power? (c : Value) : Option PowerRow :=
  match c.textAt? "power", c.textAt? "toughness" with
  | some p, some t =>
    some ⟨some (name c), p, Text.leadingInteger p.toList, t, Text.leadingInteger t.toList⟩
  | _, _ => none

/-- The loyalty of a card that has one, and not both power and toughness. -/
def loyalty? (c : Value) : Option LoyaltyRow :=
  match c.textAt? "power", c.textAt? "toughness", c.textAt? "loyalty" with
  | some _, some _, _ => none
  | _, _, some l => some ⟨some (name c), l, Text.leadingInteger l.toList⟩
  | _, _, none => none

end CardObject

/-! ## What the readers read -/

section Reading

variable {c : Value}

theorem hasText_of_mem (hc : c.isCardObject = true) (field : String)
    (hfield : field ∈ Value.cardTexts) : c.hasText field = true := by
  simp only [Value.isCardObject, Bool.and_eq_true] at hc
  exact List.all_eq_true.1 hc.1.2 field hfield

theorem isPlainCard_of_isCardObject (hc : c.isCardObject = true) : c.isPlainCard = true := by
  have htexts : Value.detailTexts.all c.hasText = true := by
    refine List.all_eq_true.2 fun field hfield => hasText_of_mem hc field ?_
    revert field
    decide
  simp only [Value.isCardObject, Bool.and_eq_true] at hc
  simp only [Value.isPlainCard, Bool.and_eq_true]
  exact ⟨⟨hc.1.1, htexts⟩, hc.2⟩

theorem hasText_of_isPlainCard (hc : c.isPlainCard = true) (field : String)
    (hfield : field ∈ Value.detailTexts) : c.hasText field = true := by
  simp only [Value.isPlainCard, Bool.and_eq_true] at hc
  exact List.all_eq_true.1 hc.1.2 field hfield

theorem hasTexts_of_isPlainCard (hc : c.isPlainCard = true) {field : String}
    (hfield : field ∈ Value.cardLists) : c.hasTexts field = true := by
  simp only [Value.isPlainCard, Bool.and_eq_true] at hc
  exact List.all_eq_true.1 hc.2 field hfield

/-- A text that has to be given is read as it stands. -/
theorem item_eq_text {v w : Value} {field : String}
    (htext : ((v.field? field).all fun w => w.text?.isSome) = true)
    (h : v.item field = .ok w) : w = .text (v.textAt field) := by
  have hfield := Value.item_eq_ok h
  rw [hfield] at htext
  obtain ⟨s, hs⟩ := Option.isSome_iff_exists.1 htext
  obtain rfl := Value.text?_eq_some.1 hs
  rw [Value.textAt, Value.textAt?, hfield]
  rfl

theorem name_eq (hc : c.isPlainCard = true) {v : Value} (h : CardData.name c = .ok v) :
    v = .text (CardObject.name c) := by
  unfold CardData.name at h
  obtain ⟨face, hface, h⟩ := bind_eq_ok.1 h
  have hread := Value.memberOf_eq_ok hface
  have hname : ((c.field? "name").all fun w => w.text?.isSome) = true := by
    simp only [Value.isPlainCard, Bool.and_eq_true] at hc
    exact hc.1.1
  rw [CardObject.name, Value.textAt]
  rcases Value.hasText_cases (hasText_of_isPlainCard hc "faceName" (by decide)) with
    ⟨hnone, hnull⟩ | ⟨s, hsome, htext⟩
  · -- without a face the name has to be there
    obtain rfl := hread.trans hnull
    rw [hnone, Option.getD_none, if_pos rfl]
    exact item_eq_text hname h
  · obtain rfl := hread.trans htext
    rw [hsome, Option.getD_some]
    by_cases hs : s = ""
    · subst hs
      rw [if_pos rfl]
      exact item_eq_text hname h
    · rw [if_neg hs]
      have htruthy : (Value.text s).truthy = true := by simp [Value.truthy, hs]
      rw [if_pos htruthy] at h
      exact (pure_eq_ok.1 h).symm

/-- A field of texts is read as its text, and as the empty one without any. -/
theorem textField_eq {field : String} (hc : c.hasText field = true) {v : Value}
    (h : CardData.textField c field = .ok v) : v = .text (c.textAt field) := by
  unfold CardData.textField at h
  obtain ⟨w, hw, h⟩ := bind_eq_ok.1 h
  obtain rfl := pure_eq_ok.1 h
  have hread := Value.memberOf_eq_ok hw
  rw [Value.textAt]
  rcases Value.hasText_cases hc with ⟨hnone, hnull⟩ | ⟨s, hsome, htext⟩
  · obtain rfl := hread.trans hnull
    rw [hnone]
    rfl
  · obtain rfl := hread.trans htext
    rw [hsome, Option.getD_some, Value.orElse]
    by_cases hs : s = ""
    · subst hs
      rfl
    · rw [if_pos (by simp [Value.truthy, hs])]

/-- The labels of a card are read as the texts in their field, or as the ones of a card
without any. -/
theorem labels_eq (hc : c.isPlainCard = true) (s : Side) {vs : List Value}
    (h : CardData.labels c s.field (s.fallback.map .text) = .ok vs) :
    vs = (CardObject.labels c s).map .text := by
  have hfield : c.hasTexts s.field = true := hasTexts_of_isPlainCard hc (by cases s <;> decide)
  unfold CardData.labels at h
  obtain ⟨v, hv, h⟩ := bind_eq_ok.1 h
  have hread := Value.memberOf_eq_ok hv
  have hnone : c.textsAt s.field = [] → vs = s.fallback.map .text →
      vs = (CardObject.labels c s).map .text := by
    intro htexts hvs
    rw [hvs, CardObject.labels, if_pos htexts]
  unfold Value.hasTexts at hfield
  cases hgiven : c.field? s.field with
  | none =>
    rw [hgiven] at hread
    subst hread
    exact hnone (by simp [Value.textsAt, Value.itemsAt, hgiven]) (pure_eq_ok.1 h).symm
  | some w =>
    rw [hgiven] at hread hfield
    obtain rfl : v = w := hread
    cases v with
    | null =>
      exact hnone (by simp [Value.textsAt, Value.itemsAt, hgiven, Value.items])
        (pure_eq_ok.1 h).symm
    | list xs =>
      have htexts : c.textsAt s.field = xs.filterMap Value.text? := by
        simp [Value.textsAt, Value.itemsAt, hgiven, Value.items]
      have hall : (xs.filterMap Value.text?).map .text = xs := Value.map_text_filterMap hfield
      cases xs with
      | nil => exact hnone htexts (pure_eq_ok.1 h).symm
      | cons x rest =>
        have hlisted : vs = x :: rest := (Except.ok.inj h).symm
        have hsome : ¬c.textsAt s.field = [] := by
          intro hnil
          rw [← htexts, hnil] at hall
          cases hall
        rw [CardObject.labels, if_neg hsome, htexts, hall, hlisted]
    | _ => cases hfield

end Reading

end CardArchive
