import CardArchive.Proofs.Server.Asked
import CardArchive.Proofs.Store.Stock

/-!
# Refusals whose hint can not be listed

A filter on a value that its vocabulary does not have is refused with a hint that lists the
vocabulary in order. Of the vocabularies of the tables only the sets can hold a value that is
no text, since a set can be stored without a name; then the sets have no order, and a filter
on an unknown set fails without being refused. Every other call of a search is accepted or
refused.

## What this module delivers

* `lists_of_loaded`, `sets_of_loaded`: the vocabularies of a catalog that was loaded.
* `Unlistable` and `apply_of_unlistable`: the filters that fail.
* `sound_of_not_unlistable`: all other calls of a search.
* `searchFor_eq_ok`, `unrefusable_iff`, `searchFor_cases`: the search that arguments ask for
  is accepted, refused, or fails over such a filter.
-/

set_option autoImplicit false

namespace CardArchive

/-! ## Catalogs that were loaded -/

/-- A catalog of some tables: all of its values are texts, but for sets without a name. -/
theorem lists_of_loaded {t : Tables} {catalog : Catalog} (h : t.catalog = .ok catalog)
    {vocabulary : String} (hrequired : vocabulary ∈ requiredVocabularies)
    (hsets : vocabulary ≠ "sets") : catalog.Lists vocabulary := by
  obtain ⟨c, hc, -, hvocabulary⟩ := catalog_loads t
  obtain rfl := Except.ok.inj (h.symm.trans hc)
  rw [Catalog.Lists, hvocabulary vocabulary hrequired]
  simp only [requiredVocabularies, List.mem_cons, List.not_mem_nil, hsets, or_false] at hrequired
  rcases hrequired with rfl | rfl | rfl | rfl | rfl | rfl | rfl | rfl <;> exact ⟨_, rfl, rfl⟩

theorem sets_of_loaded {t : Tables} {catalog : Catalog} (h : t.catalog = .ok catalog) :
    catalog.vocabulary? "sets" = some t.setNames := by
  obtain ⟨c, hc, -, hvocabulary⟩ := catalog_loads t
  obtain rfl := Except.ok.inj (h.symm.trans hc)
  rw [hvocabulary "sets" (by decide)]
  rfl

/-! ## Filters on unknown sets -/

/-- A filter on a set that a catalog does not have while it has a set without a name. The
hint of its refusal would list the sets in order. -/
def Unlistable (catalog : Catalog) (k : Call × List Argument) : Prop :=
  ∃ m v w, k = valueCall ((.set, m), v) ∧ catalog.vocabulary? "sets" = some w ∧
    w.unnamed = true ∧ v ∉ w.values

/-- A search whose first call that is not accepted is such a filter. -/
def Asked.Unrefusable (catalog : Catalog) (q : Asked) : Prop :=
  ∃ before k after, q.calls = before ++ k :: after ∧ AllFit catalog before ∧ Unlistable catalog k

theorem apply_of_unlistable {s : Search} {k : Call × List Argument}
    (h : Unlistable s.catalog k) : ∃ f, k.1.apply s k.2 = .error (.shape f) := by
  obtain ⟨m, v, w, rfl, hw, hunnamed, hv⟩ := h
  have hcontains : s.catalog.contains "sets" (.text v) = .ok false := by
    have hholds : w.holds (.text v) = false := by simpa [Vocabulary.holds] using hv
    rw [Catalog.contains, hw]
    simp only [hholds]
    rfl
  have hvalues : s.catalog.values "sets" = .error (.unordered "str" "NoneType") := by
    simp only [Catalog.values, hw, Vocabulary.sorted, hunnamed, if_true]
  have hmember : Search.checkMember s.catalog "sets" Category.set.words (.ofText v) =
      .error (.shape (.unordered "str" "NoneType")) := by
    simp only [Search.checkMember, Search.member?, Argument.ofText, hcontains, hvalues]
    rfl
  refine ⟨.unordered "str" "NoneType", ?_⟩
  change s.byMember .set "sets" (.ofText v) (.mode m) = _
  change (Search.checkMember s.catalog "sets" Category.set.words (.ofText v) >>= fun member =>
    pure (s.record .set (.value member m))) = _
  rw [hmember]
  rfl

theorem vocabularyOf?_eq_sets {c : Category} (h : Search.vocabularyOf? c = some "sets") :
    c = .set := by
  cases c with
  | set => rfl
  | _ => exact absurd h (by decide)

/-- Any other call that is asked for is accepted or refused. -/
theorem sound_of_not_unlistable {t : Tables} {catalog : Catalog} (h : t.catalog = .ok catalog)
    {q : Asked} (hq : ∀ f ∈ q.filters, f.1.1.comparesNumbers = false)
    {k : Call × List Argument} (hk : k ∈ q.calls) (hlistable : ¬Unlistable catalog k) :
    SoundCall catalog k := by
  rw [Asked.calls, List.mem_append] at hk
  rcases hk with hk | hk
  · obtain ⟨⟨⟨c, m⟩, v⟩, hf, rfl⟩ := List.mem_map.1 hk
    by_cases hset : c = .set
    · subst hset
      by_cases hv : v ∈ t.setNames.values
      · -- a set that is known is accepted
        refine ⟨isNamed_value_iff.2 rfl, ?_⟩
        rintro s rfl
        have hfits : Entry.Fits s.catalog .set (.value v m) :=
          .member m rfl (contains_of_mem (sets_of_loaded h) hv)
        exact .inl ⟨_, (apply_eq_ok (isNamed_value_iff.2 rfl)).2 ⟨.set, _, rfl, hfits, rfl⟩⟩
      · have hnamed : t.setNames.unnamed = false := by
          rw [Bool.eq_false_iff]
          exact fun hunnamed => hlistable ⟨m, v, _, rfl, sets_of_loaded h, hunnamed, hv⟩
        apply sound_valueCall_of_lists rfl
        intro vocabulary hvocabulary
        cases hvocabulary
        exact ⟨_, sets_of_loaded h, hnamed⟩
    · apply sound_valueCall_of_lists (hq _ hf)
      intro vocabulary hvocabulary
      refine lists_of_loaded h (mem_required_of_vocabularyOf? hvocabulary) ?_
      rintro rfl
      exact hset (vocabularyOf?_eq_sets hvocabulary)
  · exact sound_comparisonCalls (lists_of_loaded h (by decide) (by decide)) q k hk

/-! ## Searches -/

section

variable {catalog : Catalog} {q : Asked} {args : Value}

theorem named_calls (h : q.In args) : ∀ k ∈ q.calls, k.1.IsNamed := by
  rw [Asked.calls, Asked.comparisonCalls]
  simp only [List.forall_mem_append, List.forall_mem_map]
  refine ⟨fun f hf => isNamed_value_iff.2 (comparesNumbers_of_asks h.filters f hf), ?_, ?_, ?_⟩
  · exact fun _ _ => isNamed_stat
  · exact fun _ _ => isNamed_stats
  · exact fun _ _ => isNamed_mana

/-- A search is accepted exactly if every call enters what its category can hold. -/
theorem searchFor_eq_ok (h : q.In args) {s : Search} :
    searchFor catalog args = .ok s ↔ AllFit catalog q.calls ∧ s = ⟨catalog, entered q.calls⟩ := by
  rw [searchFor_eq_accept catalog h, accept_eq_ok (named_calls h)]
  rfl

/-- A search fails over a filter on an unknown set after accepted calls. -/
theorem searchFor_of_unrefusable (h : q.In args) (hq : q.Unrefusable catalog) :
    ∃ f, searchFor catalog args = .error (.shape f) := by
  obtain ⟨before, k, after, hcalls, hbefore, hk⟩ := hq
  have hnamed : ∀ k ∈ before, k.1.IsNamed :=
    fun k' hk' => named_calls h k' (by simp [hcalls, hk'])
  have haccept : (Search.start catalog).accept before = .ok ⟨catalog, entered before⟩ :=
    (accept_eq_ok hnamed).2 ⟨hbefore, rfl⟩
  obtain ⟨f, hf⟩ := apply_of_unlistable (s := ⟨catalog, entered before⟩) hk
  refine ⟨f, ?_⟩
  rw [searchFor_eq_accept catalog h, hcalls, accept_append, haccept, ok_bind, Search.accept, hf]
  rfl

/-- Otherwise it is accepted or refused. -/
theorem decided_searchFor {t : Tables} (ht : t.catalog = .ok catalog) (h : q.In args)
    (hq : ¬q.Unrefusable catalog) : Decided (searchFor catalog args) := by
  rw [searchFor_eq_accept catalog h]
  refine decided_accept (fun before k after hcalls hbefore => ?_) rfl
  exact sound_of_not_unlistable ht (comparesNumbers_of_asks h.filters) (by simp [hcalls])
    fun hk => hq ⟨before, k, after, hcalls, hbefore, hk⟩

/-- The search that arguments ask for is accepted, refused, or fails over a filter. -/
theorem searchFor_cases {t : Tables} (ht : t.catalog = .ok catalog) (h : q.In args) :
    Decided (searchFor catalog args) ∨ ∃ f, searchFor catalog args = .error (.shape f) := by
  by_cases hq : q.Unrefusable catalog
  · exact .inr (searchFor_of_unrefusable h hq)
  · exact .inl (decided_searchFor ht h hq)

theorem unrefusable_iff {t : Tables} (ht : t.catalog = .ok catalog) (h : q.In args) :
    q.Unrefusable catalog ↔ ∃ f, searchFor catalog args = .error (.shape f) := by
  refine ⟨searchFor_of_unrefusable h, fun ⟨f, hf⟩ => ?_⟩
  by_contra hq
  rcases decided_searchFor ht h hq with ⟨s, hs⟩ | ⟨d, hd⟩
  · simp [hs] at hf
  · simp [hd] at hf

end

end CardArchive
