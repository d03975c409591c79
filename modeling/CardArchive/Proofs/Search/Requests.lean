import CardArchive.Proofs.Keyed
import CardArchive.Proofs.Outcome
import CardArchive.Search.Call

/-!
# What a search can hold

A search is built by requests: calls by name with any arguments, accepted or
refused, and requests to drop all filters. Whatever the requests were, each
category holds only filters of its own kind: words without blanks, values of the
category's vocabulary, or comparisons of the right two sides.

## What this module delivers

* `Request` and `Search.after`: the search after some requests.
* `Entry.Fits` and `Filters.Fit`: the filters that a category can hold.
* `Call.filter?`: the filter that a call enters, as its arguments say.
* `Call.category` and `category_of_filter?`: the category that a call enters into.
* `apply_eq_ok`: which calls are accepted, and what they add.
* `fit_after`: the filters of every search that requests can build.
* `isValue_of_fits`, `map_statTests`, `map_versusTests`, `map_manaTests`: the filters of
  one category as data of its kind.
-/

set_option autoImplicit false

namespace CardArchive

/-! ## Requests -/

/-- One request to a search: a call by name, or to drop all filters. -/
inductive Request where
  | call (name : String) (args : List Argument)
  | clear

namespace Search

/-- The search after a request. A refused call changes nothing, nor does a name that
no call has. -/
def answer (s : Search) : Request → Search
  | .call name args =>
    match Call.ofName? name with
    | some c =>
      match c.apply s args with
      | .ok next => next
      | .error _ => s
    | none => s
  | .clear => s.clear

/-- The search over a catalog after some requests, from the one without filters. -/
def after (catalog : Catalog) (requests : List Request) : Search :=
  requests.foldl answer (start catalog)

end Search

/-! ## Filters of a category -/

namespace Category

/-- Whether the filters of a category are words. -/
def takesWords : Category → Bool
  | name | text | flavorText => true
  | _ => false

/-- Whether the filters of a category are comparisons; those of the others are words
and values. -/
def comparesNumbers : Category → Bool
  | stat | statVersusStat | manaType => true
  | _ => false

end Category

/-- A word that can be searched for: not empty and without blanks. -/
def IsWord (w : String) : Prop := w ≠ "" ∧ ∀ c ∈ w.toList, Text.isBlank c = false

/-- The filters that a category can hold over a catalog. -/
inductive Entry.Fits (catalog : Catalog) : Category → Entry → Prop
  | word {c : Category} {w : String} (m : Mode) (hc : c.takesWords = true) (hw : IsWord w) :
      Fits catalog c (.value w m)
  | member {c : Category} {vocabulary v : String} (m : Mode)
      (hc : Search.vocabularyOf? c = some vocabulary)
      (hv : catalog.contains vocabulary (.text v) = .ok true) : Fits catalog c (.value v m)
  | stat (s : Stat) (o : Operator) (n : Int) :
      Fits catalog .stat (.comparison (.stat s) o (.value (.int n)))
  | stats {a b : Stat} (o : Operator) (hab : a ≠ b) :
      Fits catalog .statVersusStat (.comparison (.stat a) o (.stat b))
  | mana {symbol : String} (o : Operator) (n : Int)
      (hs : catalog.contains "mana_types" (.text symbol) = .ok true) :
      Fits catalog .manaType (.comparison (.value (.text symbol)) o (.value (.int n)))

/-- Every filter is one that its category can hold. -/
def Filters.Fit (catalog : Catalog) (f : Filters) : Prop :=
  ∀ r ∈ f.recorded, r.2.Fits catalog r.1

theorem fit_empty (catalog : Catalog) : Filters.empty.Fit catalog := by
  intro r hr
  exact absurd hr List.not_mem_nil

theorem fit_add {catalog : Catalog} {f : Filters} {c : Category} {e : Entry}
    (hf : f.Fit catalog) (he : e.Fits catalog c) : (f.add c e).Fit catalog := by
  intro r hr
  rcases List.mem_append.1 hr with hr | hr
  · exact hf r hr
  · rw [List.mem_singleton.1 hr]
    exact he

/-! ## Checks of arguments -/

theorem contains_of_mem {catalog : Catalog} {vocabulary v : String} {w : Vocabulary}
    (hw : catalog.vocabulary? vocabulary = some w) (hv : v ∈ w.values) :
    catalog.contains vocabulary (.text v) = .ok true := by
  have hholds : w.holds (.text v) = true := by simp [Vocabulary.holds, hv]
  rw [Catalog.contains, hw]
  simp only [hholds]
  rfl

namespace Search

/-- A word is accepted exactly if it can be searched for. -/
theorem checkWord_eq_ok {a : Argument} {w : String} :
    checkWord a = .ok w ↔ a = .ofText w ∧ IsWord w := by
  constructor
  · intro h
    unfold checkWord at h
    split at h
    · simp at h
    · rename_i s
      split at h
      · simp at h
      · split at h
        · simp at h
        · rename_i hempty hblank
          cases h
          refine ⟨rfl, ?_, ?_⟩
          · intro hs
            exact hempty (by rw [hs]; rfl)
          · intro c hc
            by_contra hb
            exact hblank (List.any_eq_true.2 ⟨c, hc, by simpa using hb⟩)
    · simp at h
  · rintro ⟨rfl, hne, hblank⟩
    have hempty : w.isEmpty = false := by simpa [String.isEmpty_iff] using hne
    have hany : w.toList.any Text.isBlank = false := by
      rw [List.any_eq_false]
      exact fun c hc => by simp [hblank c hc]
    simp [checkWord, Argument.ofText, hempty, hany]

/-- Only a text that the vocabulary holds is found in it. -/
theorem member?_eq_some {catalog : Catalog} {vocabulary v : String} {a : Argument}
    (h : member? catalog vocabulary a = .ok (some v)) :
    a = .ofText v ∧ catalog.contains vocabulary (.text v) = .ok true := by
  unfold member? at h
  split at h
  · rename_i value
    obtain ⟨found, hfound, h⟩ := bind_eq_ok.1 h
    rw [mapError_eq_ok] at hfound
    split at h
    · rename_i s
      rw [pure_eq_ok, Option.some.injEq] at h
      rw [← h]
      exact ⟨rfl, hfound⟩
    · simp at h
  · obtain ⟨found, hfound, h⟩ := bind_eq_ok.1 h
    simp at h

/-- A value is accepted exactly if it is a text that the vocabulary holds. -/
theorem checkMember_eq_ok {catalog : Catalog} {vocabulary what v : String} {a : Argument} :
    checkMember catalog vocabulary what a = .ok v ↔
      a = .ofText v ∧ catalog.contains vocabulary (.text v) = .ok true := by
  constructor
  · intro h
    unfold checkMember at h
    obtain ⟨found, hfound, h⟩ := bind_eq_ok.1 h
    split at h
    · rename_i s
      rw [pure_eq_ok] at h
      rw [← h]
      exact member?_eq_some hfound
    · obtain ⟨known, -, h⟩ := bind_eq_ok.1 h
      simp at h
  · rintro ⟨rfl, hv⟩
    simp only [checkMember, Argument.ofText, member?, hv]
    rfl

/-- The text of a mode stands for it. -/
theorem checkMode_text (m : Mode) : checkMode (.value (.text m.text)) = .ok m := by
  cases m <;> rfl

theorem checkOperator_text (o : Operator) : checkOperator (.value (.text o.text)) = .ok o := by
  cases o <;> rfl

theorem checkInteger_eq_ok {what : String} {a : Argument} {n : Int} :
    checkInteger what a = .ok n ↔ a = .value (.int n) := by
  constructor
  · intro h
    unfold checkInteger at h
    split at h
    · cases h
      rfl
    · simp at h
  · rintro rfl
    rfl

/-! ## Accepted calls -/

section

variable {s next : Search}

theorem byWord_eq_ok {c : Category} {word mode : Argument} :
    s.byWord c word mode = .ok next ↔
      ∃ w m, word = .ofText w ∧ checkMode mode = .ok m ∧ IsWord w ∧
        next = s.record c (.value w m) := by
  simp only [byWord, bind_eq_ok, mapError_eq_ok, pure_eq_ok, checkWord_eq_ok]
  constructor
  · rintro ⟨w, ⟨hword, hw⟩, m, hm, rfl⟩
    exact ⟨w, m, hword, hm, hw, rfl⟩
  · rintro ⟨w, m, hword, hm, hw, rfl⟩
    exact ⟨w, ⟨hword, hw⟩, m, hm, rfl⟩

theorem byMember_eq_ok {c : Category} {vocabulary : String} {value mode : Argument} :
    s.byMember c vocabulary value mode = .ok next ↔
      ∃ v m, value = .ofText v ∧ checkMode mode = .ok m ∧
        s.catalog.contains vocabulary (.text v) = .ok true ∧
        next = s.record c (.value v m) := by
  simp only [byMember, refuse_eq_ok, bind_eq_ok, mapError_eq_ok, pure_eq_ok, checkMember_eq_ok]
  constructor
  · rintro ⟨-, m, hm, v, ⟨hvalue, hv⟩, rfl⟩
    exact ⟨v, m, hvalue, hm, hv, rfl⟩
  · rintro ⟨v, m, rfl, hm, hv, rfl⟩
    exact ⟨Bool.false_ne_true, m, hm, v, ⟨rfl, hv⟩, rfl⟩

theorem byStat_eq_ok {stat operator value : Argument} :
    s.byStat stat operator value = .ok next ↔
      ∃ st o n, checkStat stat = .ok st ∧ checkOperator operator = .ok o ∧
        value = .value (.int n) ∧
        next = s.record .stat (.comparison (.stat st) o (.value (.int n))) := by
  simp only [byStat, bind_eq_ok, mapError_eq_ok, pure_eq_ok, checkInteger_eq_ok]
  constructor
  · rintro ⟨st, hst, o, ho, n, hn, rfl⟩
    exact ⟨st, o, n, hst, ho, hn, rfl⟩
  · rintro ⟨st, o, n, hst, ho, hn, rfl⟩
    exact ⟨st, hst, o, ho, n, hn, rfl⟩

theorem byStats_eq_ok {left operator right : Argument} :
    s.byStats left operator right = .ok next ↔
      ∃ a o b, checkStat left = .ok a ∧ checkOperator operator = .ok o ∧
        checkStat right = .ok b ∧ a ≠ b ∧
        next = s.record .statVersusStat (.comparison (.stat a) o (.stat b)) := by
  simp only [byStats, refuse_eq_ok, bind_eq_ok, mapError_eq_ok, pure_eq_ok]
  constructor
  · rintro ⟨a, ha, o, ho, b, hb, hab, rfl⟩
    exact ⟨a, o, b, ha, ho, hb, hab, rfl⟩
  · rintro ⟨a, o, b, ha, ho, hb, hab, rfl⟩
    exact ⟨a, ha, o, ho, b, hb, hab, rfl⟩

theorem byMana_eq_ok {symbol operator quantity : Argument} :
    s.byMana symbol operator quantity = .ok next ↔
      ∃ sym o n, checkSymbol symbol = .ok sym ∧ checkOperator operator = .ok o ∧
        quantity = .value (.int n) ∧
        s.catalog.contains "mana_types" (.text sym) = .ok true ∧
        next = s.record .manaType (.comparison (.value (.text sym)) o (.value (.int n))) := by
  simp only [byMana, bind_eq_ok, mapError_eq_ok, pure_eq_ok, checkInteger_eq_ok,
    checkMember_eq_ok]
  constructor
  · rintro ⟨sym, hsym, o, ho, n, hn, found, ⟨hfound, hmember⟩, rfl⟩
    -- the symbol that is found in the catalog is the one that was checked
    obtain rfl : sym = found := by
      cases hfound
      rfl
    exact ⟨sym, o, n, hsym, ho, hn, hmember, rfl⟩
  · rintro ⟨sym, o, n, hsym, ho, hn, hmember, rfl⟩
    exact ⟨sym, hsym, o, ho, n, hn, sym, ⟨rfl, hmember⟩, rfl⟩

end

end Search

/-! ## Calls that have a name -/

/-- Whether a call is one that can be made by name. -/
def Call.IsNamed (k : Call) : Prop := ∃ name, Call.ofName? name = some k

theorem mem_valueNames_of_ofName? {name : String} {c : Category}
    (h : Call.ofName? name = some (.value c)) : ∃ n, (n, c) ∈ Call.valueNames := by
  unfold Call.ofName? at h
  split at h
  · simp at h
  · split at h
    · simp at h
    · split at h
      · simp at h
      · obtain ⟨p, hp, hc⟩ := Option.map_eq_some_iff.1 h
        cases hc
        exact ⟨p.1, List.mem_of_find?_eq_some hp⟩

@[simp]
theorem isNamed_stat : Call.stat.IsNamed := ⟨"by_stat", rfl⟩

@[simp]
theorem isNamed_stats : Call.stats.IsNamed := ⟨"by_stat_versus_stat", rfl⟩

@[simp]
theorem isNamed_mana : Call.mana.IsNamed := ⟨"by_mana_type", rfl⟩

/-- The categories that are called by name are those that compare nothing. -/
@[simp]
theorem isNamed_value_iff {c : Category} :
    (Call.value c).IsNamed ↔ c.comparesNumbers = false := by
  constructor
  · rintro ⟨name, h⟩
    obtain ⟨n, hn⟩ := mem_valueNames_of_ofName? h
    have hall : ∀ p ∈ Call.valueNames, p.2.comparesNumbers = false := by decide
    exact hall (n, c) hn
  · intro h
    have hall : ∀ c : Category, c.comparesNumbers = false →
        ∃ p ∈ Call.valueNames, Call.ofName? p.1 = some (.value c) := by
      intro c
      cases c <;> decide
    obtain ⟨p, -, hp⟩ := hall c h
    exact ⟨p.1, hp⟩

/-- A category that compares nothing takes words if it has no vocabulary. -/
theorem takesWords_of_comparesNumbers {c : Category} (h : c.comparesNumbers = false)
    (hv : Search.vocabularyOf? c = none) : c.takesWords = true := by
  cases c with
  | name | text | flavorText => rfl
  | stat | statVersusStat | manaType => cases h
  | _ => cases hv

/-- No vocabulary limits words. -/
theorem vocabularyOf?_of_takesWords {c : Category} (h : c.takesWords = true) :
    Search.vocabularyOf? c = none := by
  cases c with
  | name | text | flavorText => rfl
  | _ => cases h

/-! ## What a call enters -/

namespace Call

/-- The filter of a value in a mode. -/
def valueFilter? : Argument → Argument → Option Entry
  | .value (.text v), mode => do
    let m ← (Search.checkMode mode).toOption
    pure (.value v m)
  | _, _ => none

/-- The filter that a call enters and its category, as its arguments say. Whether the
category can hold it is another question. -/
def filter? : Call → List Argument → Option (Category × Entry)
  | value c, [v] => (valueFilter? v (.mode .mustInclude)).map (Prod.mk c)
  | value c, [v, m] => (valueFilter? v m).map (Prod.mk c)
  | stat, [a, o, b] => do
    let stat ← (Search.checkStat a).toOption
    let operator ← (Search.checkOperator o).toOption
    let n ← (Search.checkInteger "Stat value" b).toOption
    pure (.stat, .comparison (.stat stat) operator (.value (.int n)))
  | stats, [a, o, b] => do
    let left ← (Search.checkStat a).toOption
    let operator ← (Search.checkOperator o).toOption
    let right ← (Search.checkStat b).toOption
    pure (.statVersusStat, .comparison (.stat left) operator (.stat right))
  | mana, [a, o, b] => do
    let symbol ← (Search.checkSymbol a).toOption
    let operator ← (Search.checkOperator o).toOption
    let n ← (Search.checkInteger "Mana quantity" b).toOption
    pure (.manaType, .comparison (.value (.text symbol)) operator (.value (.int n)))
  | _, _ => none

end Call

/-- The category that a call belongs to. -/
def Call.category : Call → Category
  | .value c => c
  | .stat => .stat
  | .stats => .statVersusStat
  | .mana => .manaType

/-- A call enters filters of its own category only. -/
theorem category_of_filter? {k : Call} {args : List Argument} {c : Category} {e : Entry}
    (h : k.filter? args = some (c, e)) : c = k.category := by
  unfold Call.filter? at h
  simp only [Option.bind_eq_bind, Option.pure_def] at h
  split at h
  case h_6 => cases h
  case h_1 | h_2 =>
    obtain ⟨_, -, heq⟩ := Option.map_eq_some_iff.1 h
    exact (Prod.mk.inj heq).1.symm
  all_goals
    simp only [Option.bind_eq_some_iff, Option.some.injEq, Prod.mk.injEq] at h
    obtain ⟨_, -, _, -, _, -, hc, -⟩ := h
    exact hc.symm

theorem valueFilter?_eq_some {value mode : Argument} {e : Entry} :
    Call.valueFilter? value mode = some e ↔
      ∃ v m, value = .ofText v ∧ Search.checkMode mode = .ok m ∧ e = .value v m := by
  unfold Call.valueFilter?
  split
  · simp only [Option.bind_eq_bind, Option.bind_eq_some_iff, toOption_eq_some, Option.pure_def,
      Option.some.injEq]
    constructor
    · rintro ⟨m, hm, rfl⟩
      exact ⟨_, m, rfl, hm, rfl⟩
    · rintro ⟨v, m, hv, hm, rfl⟩
      cases hv
      exact ⟨m, hm, rfl⟩
  · rename_i hother
    simp only [reduceCtorEq, false_iff]
    rintro ⟨v, m, hv, -⟩
    exact hother v hv

/-- A filter of words or values is accepted exactly if it is one that its category can
hold. -/
theorem byValue_eq_ok {s next : Search} {c : Category} {v m : Argument}
    (hc : c.comparesNumbers = false) :
    s.byValue c v m = .ok next ↔
      ∃ e, Call.valueFilter? v m = some e ∧ e.Fits s.catalog c ∧ next = s.record c e := by
  simp only [valueFilter?_eq_some]
  unfold Search.byValue
  split
  · rename_i vocabulary hvoc
    rw [Search.byMember_eq_ok]
    constructor
    · rintro ⟨v, m, hvalue, hm, hv, rfl⟩
      exact ⟨_, ⟨v, m, hvalue, hm, rfl⟩, .member m hvoc hv, rfl⟩
    · rintro ⟨_, ⟨v, m, hvalue, hm, rfl⟩, hfits, rfl⟩
      cases hfits with
      | word _ htakes _ =>
        have hnone := vocabularyOf?_of_takesWords htakes
        rw [hvoc] at hnone
        cases hnone
      | member _ hvoc' hv =>
        rw [hvoc] at hvoc'
        cases hvoc'
        exact ⟨v, m, hvalue, hm, hv, rfl⟩
  · rename_i hvoc
    rw [Search.byWord_eq_ok]
    constructor
    · rintro ⟨w, m, hvalue, hm, hw, rfl⟩
      exact ⟨_, ⟨w, m, hvalue, hm, rfl⟩, .word m (takesWords_of_comparesNumbers hc hvoc) hw, rfl⟩
    · rintro ⟨_, ⟨w, m, hvalue, hm, rfl⟩, hfits, rfl⟩
      cases hfits with
      | word _ _ hw => exact ⟨w, m, hvalue, hm, hw, rfl⟩
      | member _ hvoc' _ =>
        rw [hvoc] at hvoc'
        cases hvoc'

/-- A call is accepted exactly if what it enters is a filter that its category can hold;
then it adds this one. The filters entered before do not matter. -/
theorem apply_eq_ok {s next : Search} {k : Call} {args : List Argument} (hk : k.IsNamed) :
    k.apply s args = .ok next ↔
      ∃ c e, k.filter? args = some (c, e) ∧ e.Fits s.catalog c ∧ next = s.record c e := by
  unfold Call.apply
  split
  · rw [byValue_eq_ok (isNamed_value_iff.1 hk)]
    simp [Call.filter?]
  · rw [byValue_eq_ok (isNamed_value_iff.1 hk)]
    simp [Call.filter?]
  · rw [Search.byStat_eq_ok]
    simp only [Call.filter?, Option.bind_eq_bind, Option.bind_eq_some_iff, toOption_eq_some,
      Search.checkInteger_eq_ok, Option.pure_def, Option.some.injEq, Prod.mk.injEq]
    constructor
    · rintro ⟨st, o, n, hst, ho, hn, rfl⟩
      exact ⟨_, _, ⟨st, hst, o, ho, n, hn, rfl, rfl⟩, .stat st o n, rfl⟩
    · rintro ⟨_, _, ⟨st, hst, o, ho, n, hn, rfl, rfl⟩, -, rfl⟩
      exact ⟨st, o, n, hst, ho, hn, rfl⟩
  · rw [Search.byStats_eq_ok]
    simp only [Call.filter?, Option.bind_eq_bind, Option.bind_eq_some_iff, toOption_eq_some,
      Option.pure_def, Option.some.injEq, Prod.mk.injEq]
    constructor
    · rintro ⟨a, o, b, ha, ho, hb, hab, rfl⟩
      exact ⟨_, _, ⟨a, ha, o, ho, b, hb, rfl, rfl⟩, .stats o hab, rfl⟩
    · rintro ⟨_, _, ⟨a, ha, o, ho, b, hb, rfl, rfl⟩, hfits, rfl⟩
      cases hfits with
      | stats _ hab => exact ⟨a, o, b, ha, ho, hb, hab, rfl⟩
  · rw [Search.byMana_eq_ok]
    simp only [Call.filter?, Option.bind_eq_bind, Option.bind_eq_some_iff, toOption_eq_some,
      Search.checkInteger_eq_ok, Option.pure_def, Option.some.injEq, Prod.mk.injEq]
    constructor
    · rintro ⟨sym, o, n, hsym, ho, hn, hmember, rfl⟩
      exact ⟨_, _, ⟨sym, hsym, o, ho, n, hn, rfl, rfl⟩, .mana o n hmember, rfl⟩
    · rintro ⟨_, _, ⟨sym, hsym, o, ho, n, hn, rfl, rfl⟩, hfits, rfl⟩
      cases hfits with
      | mana _ _ hmember => exact ⟨sym, o, n, hsym, ho, hn, hmember, rfl⟩
  · rename_i hvalue hmode hstat hstats hmana
    have hnone : k.filter? args = none := by
      unfold Call.filter?
      split
      · exact (hvalue _ _ rfl rfl).elim
      · exact (hmode _ _ _ rfl rfl).elim
      · exact (hstat _ _ _ rfl rfl).elim
      · exact (hstats _ _ _ rfl rfl).elim
      · exact (hmana _ _ _ rfl rfl).elim
      · rfl
    simp [hnone]

/-- A request keeps the catalog, and every filter one that its category can hold. -/
theorem fit_answer {s : Search} (hs : s.filters.Fit s.catalog) (r : Request) :
    (s.answer r).catalog = s.catalog ∧ (s.answer r).filters.Fit s.catalog := by
  cases r with
  | clear => exact ⟨rfl, fit_empty s.catalog⟩
  | call name args =>
    cases hc : Call.ofName? name with
    | none =>
      -- a name that no call has
      have hkept : s.answer (.call name args) = s := by simp only [Search.answer, hc]
      rw [hkept]
      exact ⟨rfl, hs⟩
    | some c =>
      cases h : c.apply s args with
      | error e =>
        -- a refused call
        have hkept : s.answer (.call name args) = s := by simp only [Search.answer, hc, h]
        rw [hkept]
        exact ⟨rfl, hs⟩
      | ok next =>
        have hnext : s.answer (.call name args) = next := by simp only [Search.answer, hc, h]
        obtain ⟨category, entry, -, hfits, rfl⟩ := (apply_eq_ok ⟨name, hc⟩).1 h
        rw [hnext]
        exact ⟨rfl, fit_add hs hfits⟩

/-- Every search that requests can build keeps its catalog and holds only filters that
their categories can hold. -/
theorem fit_after (catalog : Catalog) (requests : List Request) :
    (Search.after catalog requests).catalog = catalog ∧
      (Search.after catalog requests).filters.Fit catalog := by
  -- induction on the requests, from any search over the catalog
  have run : ∀ (requests : List Request) (s : Search), s.catalog = catalog →
      s.filters.Fit catalog → (requests.foldl Search.answer s).catalog = catalog ∧
        (requests.foldl Search.answer s).filters.Fit catalog := by
    intro requests
    induction requests with
    | nil => exact fun s hc hf => ⟨hc, hf⟩
    | cons r rest ih =>
      intro s hc hf
      subst hc
      obtain ⟨hcat, hfit⟩ := fit_answer hf r
      exact ih (s.answer r) hcat hfit
  exact run requests (Search.start catalog) rfl (fit_empty catalog)

/-! ## The filters of one category as data -/

theorem mem_entries {f : Filters} {c : Category} {e : Entry} :
    e ∈ f.entries c ↔ (c, e) ∈ f.recorded := mem_under

theorem fits_of_mem_entries {catalog : Catalog} {f : Filters} (hf : f.Fit catalog) {c : Category}
    {e : Entry} (h : e ∈ f.entries c) : e.Fits catalog c :=
  hf (c, e) (mem_entries.1 h)

/-- A category that compares nothing holds values only. -/
theorem isValue_of_fits {catalog : Catalog} {c : Category} {e : Entry}
    (hc : c.comparesNumbers = false) (h : e.Fits catalog c) : e.isValue = true := by
  cases h with
  | word m hc hw => rfl
  | member m hc hv => rfl
  | stat s o n => cases hc
  | stats o hab => cases hc
  | mana o n hs => cases hc

/-- A category that can hold a value compares nothing. -/
theorem comparesNumbers_of_fits {catalog : Catalog} {c : Category} {v : String} {m : Mode}
    (h : Entry.Fits catalog c (.value v m)) : c.comparesNumbers = false := by
  cases h with
  | word _ hc _ =>
    cases c with
    | stat | statVersusStat | manaType => cases hc
    | _ => rfl
  | member _ hc _ =>
    cases c with
    | stat | statVersusStat | manaType => cases hc
    | _ => rfl

/-- A comparison of a statistic with an integer. -/
structure StatTest where
  stat : Stat
  operator : Operator
  value : Int

/-- A comparison of two statistics. -/
structure VersusTest where
  left : Stat
  operator : Operator
  right : Stat

/-- A comparison of the amount of a mana symbol with an integer. -/
structure ManaTest where
  symbol : String
  operator : Operator
  quantity : Int

/-- The filter of a comparison with an integer. -/
def StatTest.entry (x : StatTest) : Entry :=
  .comparison (.stat x.stat) x.operator (.value (.int x.value))

/-- The filter of a comparison of two statistics. -/
def VersusTest.entry (x : VersusTest) : Entry :=
  .comparison (.stat x.left) x.operator (.stat x.right)

/-- The filter of a comparison of an amount of mana. -/
def ManaTest.entry (x : ManaTest) : Entry :=
  .comparison (.value (.text x.symbol)) x.operator (.value (.int x.quantity))

/-- The comparisons with an integer among some filters. -/
def statTests (es : List Entry) : List StatTest :=
  es.filterMap fun
    | .comparison (.stat s) o (.value (.int n)) => some ⟨s, o, n⟩
    | _ => none

/-- The comparisons of two statistics among some filters. -/
def versusTests (es : List Entry) : List VersusTest :=
  es.filterMap fun
    | .comparison (.stat a) o (.stat b) => some ⟨a, o, b⟩
    | _ => none

/-- The comparisons of amounts of mana among some filters. -/
def manaTests (es : List Entry) : List ManaTest :=
  es.filterMap fun
    | .comparison (.value (.text symbol)) o (.value (.int n)) => some ⟨symbol, o, n⟩
    | _ => none

/-- A list all of whose items can be read as data is the list of what it is read as. -/
theorem map_filterMap_eq {α β : Type} {read : β → Option α} {write : α → β} {ys : List β}
    (h : ∀ y ∈ ys, ∃ x, read y = some x ∧ write x = y) : (ys.filterMap read).map write = ys := by
  induction ys with
  | nil => rfl
  | cons y ys ih =>
    obtain ⟨x, hread, hwrite⟩ := h y List.mem_cons_self
    rw [List.filterMap_cons_some hread, List.map_cons, hwrite,
      ih fun z hz => h z (List.mem_cons_of_mem _ hz)]

theorem map_statTests {catalog : Catalog} {es : List Entry}
    (h : ∀ e ∈ es, e.Fits catalog .stat) : (statTests es).map StatTest.entry = es := by
  apply map_filterMap_eq
  intro e he
  cases h e he with
  | word m hc hw => cases hc
  | member m hc hv => cases hc
  | stat s o n => exact ⟨⟨s, o, n⟩, rfl, rfl⟩

theorem map_versusTests {catalog : Catalog} {es : List Entry}
    (h : ∀ e ∈ es, e.Fits catalog .statVersusStat) :
    (versusTests es).map VersusTest.entry = es := by
  apply map_filterMap_eq
  intro e he
  cases h e he with
  | word m hc hw => cases hc
  | member m hc hv => cases hc
  | @stats a b o hab => exact ⟨⟨a, o, b⟩, rfl, rfl⟩

theorem map_manaTests {catalog : Catalog} {es : List Entry}
    (h : ∀ e ∈ es, e.Fits catalog .manaType) : (manaTests es).map ManaTest.entry = es := by
  apply map_filterMap_eq
  intro e he
  cases h e he with
  | word m hc hw => cases hc
  | member m hc hv => cases hc
  | @mana symbol o n hs => exact ⟨⟨symbol, o, n⟩, rfl, rfl⟩

end CardArchive
