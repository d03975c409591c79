import CardArchive.Proofs.Search.Requests

/-!
# A search filter is accepted or refused

A filter that is not accepted is refused with an error that says what is wrong with it. For
words and comparisons of statistics this holds whatever the arguments are. Values and mana
symbols are looked up in the catalog, so there it takes a vocabulary that is present and
holds texts only: the hint of a refusal lists the vocabulary in order, and a missing value
has no place in an order.

## What this module delivers

* `Decided`: a computation that ends with a result or with a refusal.
* `Catalog.Lists` and `Catalog.OfTexts`: vocabularies of texts.
* `Argument.nested?`: the arguments that can not be looked up.
* `decided_byValue`, `decided_byStat`, `decided_byStats`, `decided_byMana`: the filters.
-/

set_option autoImplicit false

namespace CardArchive

variable {α β : Type}

/-! ## Results and refusals -/

/-- A computation that ends with a result, or with a refusal that names what is wrong with a
search. -/
def Decided (x : Except Failure α) : Prop := (∃ a, x = .ok a) ∨ ∃ e, x = .error (.query e)

theorem decided_ok (a : α) : Decided (.ok a) := .inl ⟨a, rfl⟩

theorem decided_refused (e : QueryError) : Decided (.error (.query e) : Except Failure α) :=
  .inr ⟨e, rfl⟩

theorem decided_bind {x : Except Failure α} {f : α → Except Failure β} (hx : Decided x)
    (hf : ∀ a, x = .ok a → Decided (f a)) : Decided (x >>= f) := by
  rcases hx with ⟨a, rfl⟩ | ⟨e, rfl⟩
  · exact hf a rfl
  · exact decided_refused e

theorem decided_mapError (x : Except QueryError α) : Decided (x.mapError Failure.query) := by
  cases x with
  | ok a => exact decided_ok a
  | error e => exact decided_refused e

/-- What is decided and not accepted is refused. -/
theorem refused_of_decided {x : Except Failure α} (hx : Decided x) (hno : ∀ a, x ≠ .ok a) :
    ∃ e, x = .error (.query e) := by
  rcases hx with ⟨a, h⟩ | h
  · exact absurd h (hno a)
  · exact h

/-! ## Vocabularies of texts -/

/-- Whether a catalog has a vocabulary and all of its values are texts. -/
def Catalog.Lists (catalog : Catalog) (vocabulary : String) : Prop :=
  ∃ v, catalog.vocabulary? vocabulary = some v ∧ v.unnamed = false

/-- A catalog of texts: every required vocabulary is there, and all of its values are
texts. -/
def Catalog.OfTexts (catalog : Catalog) : Prop := ∀ n ∈ requiredVocabularies, catalog.Lists n

/-- A catalog that was made from vocabularies of texts is one of texts. -/
theorem ofTexts_of_ofVocabularies {vocabularies : List (String × Vocabulary)} {blocks : Blocks}
    {catalog : Catalog} (h : Catalog.ofVocabularies vocabularies blocks = .ok catalog)
    (hnamed : ∀ v ∈ vocabularies, v.2.unnamed = false) : catalog.OfTexts := by
  unfold Catalog.ofVocabularies at h
  split at h
  · cases h
  · rename_i hnone
    cases h
    intro n hn
    have hthere : ∃ v ∈ vocabularies, (v.1 == n) = true := by
      simpa using List.find?_eq_none.1 hnone n hn
    have hsome : (vocabularies.find? fun v => v.1 == n).isSome = true :=
      List.find?_isSome.2 hthere
    obtain ⟨w, hw⟩ := Option.isSome_iff_exists.1 hsome
    refine ⟨w.2, ?_, hnamed w (List.mem_of_find?_eq_some hw)⟩
    rw [Catalog.vocabulary?, hw]
    rfl

/-- The vocabularies that filters ask for are required. -/
theorem mem_required_of_vocabularyOf? {c : Category} {vocabulary : String}
    (h : Search.vocabularyOf? c = some vocabulary) : vocabulary ∈ requiredVocabularies := by
  cases c <;> cases h <;> decide

/-- The kind of an argument that is a list or an object: it can not be looked up among
values. -/
def Argument.nested? : Argument → Option String
  | .value (.list _) => some "list"
  | .value (.object _) => some "dict"
  | _ => none

/-! ## Filters -/

namespace Search

/-- Whether a vocabulary of texts has an argument is known, if it can be looked up at all. -/
theorem exists_member? {catalog : Catalog} {vocabulary : String}
    (h : catalog.Lists vocabulary) {a : Argument} (ha : a.nested? = none) :
    ∃ found, member? catalog vocabulary a = .ok found := by
  obtain ⟨w, hw, -⟩ := h
  cases a with
  | value v =>
    cases v with
    | list items => cases ha
    | object fields => cases ha
    | text s =>
      have hcontains : catalog.contains vocabulary (.text s) = .ok (w.holds (.text s)) := by
        rw [Catalog.contains, hw]
        rfl
      simp only [member?, hcontains]
      cases w.holds (.text s) with
      | true => exact ⟨some s, rfl⟩
      | false => exact ⟨none, rfl⟩
    | _ =>
      simp only [member?, Catalog.contains, hw]
      exact ⟨none, rfl⟩
  | _ =>
    simp only [member?, Catalog.contains, hw]
    exact ⟨none, rfl⟩

/-- An argument that can be looked up is found or refused. -/
theorem decided_checkMember {catalog : Catalog} {vocabulary : String}
    (h : catalog.Lists vocabulary) (what : String) {a : Argument} (ha : a.nested? = none) :
    Decided (checkMember catalog vocabulary what a) := by
  obtain ⟨found, hfound⟩ := exists_member? h ha
  obtain ⟨w, hw, hnamed⟩ := h
  have hlisted : catalog.values vocabulary = .ok (Text.sorted w.values) := by
    simp only [Catalog.values, hw, Vocabulary.sorted, hnamed, Bool.false_eq_true, if_false]
  simp only [checkMember, hfound, hlisted]
  cases found with
  | some s => exact decided_ok s
  | none => exact decided_refused _

theorem decided_byWord (s : Search) (c : Category) (word mode : Argument) :
    Decided (s.byWord c word mode) :=
  decided_bind (decided_mapError _) fun _ _ =>
    decided_bind (decided_mapError _) fun _ _ => decided_ok _

theorem decided_byMember {s : Search} {vocabulary : String} (h : s.catalog.Lists vocabulary)
    (c : Category) {value : Argument} (hvalue : value.nested? = none) (mode : Argument) :
    Decided (s.byMember c vocabulary value mode) := by
  unfold byMember
  split
  · exact decided_refused _
  · exact decided_bind (decided_mapError _) fun _ _ =>
      decided_bind (decided_checkMember h _ hvalue) fun _ _ => decided_ok _

/-- A word, or a text of a vocabulary, is accepted or refused. -/
theorem decided_byValue {s : Search} {c : Category}
    (h : ∀ vocabulary, vocabularyOf? c = some vocabulary → s.catalog.Lists vocabulary)
    (value : String) (mode : Argument) : Decided (s.byValue c (.ofText value) mode) := by
  unfold byValue
  split
  · rename_i vocabulary hvocabulary
    exact decided_byMember (h vocabulary hvocabulary) c rfl mode
  · exact decided_byWord s c (.ofText value) mode

theorem decided_byStat (s : Search) (stat operator value : Argument) :
    Decided (s.byStat stat operator value) :=
  decided_bind (decided_mapError _) fun _ _ => decided_bind (decided_mapError _) fun _ _ =>
    decided_bind (decided_mapError _) fun _ _ => decided_ok _

theorem decided_byStats (s : Search) (left operator right : Argument) :
    Decided (s.byStats left operator right) := by
  refine decided_bind (decided_mapError _) fun a _ => ?_
  refine decided_bind (decided_mapError _) fun _ _ => ?_
  refine decided_bind (decided_mapError _) fun b _ => ?_
  by_cases hsame : a = b
  · rw [if_pos hsame]
    exact decided_refused _
  · rw [if_neg hsame]
    exact decided_ok _

theorem decided_byMana {s : Search} (h : s.catalog.Lists "mana_types")
    (symbol operator quantity : Argument) : Decided (s.byMana symbol operator quantity) :=
  decided_bind (decided_mapError _) fun _ _ => decided_bind (decided_mapError _) fun _ _ =>
    decided_bind (decided_mapError _) fun _ _ =>
      decided_bind (decided_checkMember h _ rfl) fun _ _ => decided_ok _

end Search

end CardArchive
