import CardArchive.Proofs.Filter.Admission
import CardArchive.Proofs.Search.Determined
import CardArchive.Proofs.Search.Statements
import CardArchive.Proofs.Store.Reachable

/-!
# What searches select

A search selects a stored printing exactly if each of its active categories, entered
alone, selects it. The categories share one numbering of aliases and one test of the
card, and neither lets the filters of one category change what those of another mean.

## What this module delivers

* `Search.only`: the search with the filters of one category.
* `Filters.ofEntries`: some filters of one category, and nothing else.
* `Tables.Selects`: the printings that a search selects, by a property of them.
* `selects_of_fit`, `selects_ofEntries`, `selects_accepted`: the same by what fragments admit.
* `select_conjunctive`: a search selects what all of its categories select.
-/

set_option autoImplicit false

namespace CardArchive

/-! ## Filters of one category -/

/-- The filters of one category, without those of the others. -/
def Filters.only (f : Filters) (c : Category) : Filters :=
  ⟨f.recorded.filter fun r => r.1 = c⟩

/-- The search with the filters of one category. -/
def Search.only (s : Search) (c : Category) : Search := { s with filters := s.filters.only c }

theorem entries_only (f : Filters) (c d : Category) :
    (f.only c).entries d = if d = c then f.entries d else [] := by
  unfold Filters.only Filters.entries
  rw [List.filterMap_filter]
  by_cases h : d = c
  · rw [if_pos h]
    apply List.filterMap_congr
    intro r _
    by_cases hr : r.1 = c
    · simp [hr]
    · have hd : r.1 ≠ d := fun hrd => hr (hrd.trans h)
      simp [hr, hd]
  · rw [if_neg h, List.filterMap_eq_nil_iff]
    intro r _
    by_cases hr : r.1 = c
    · have hd : c ≠ d := fun hcd => h hcd.symm
      simp [hr, hd]
    · simp [hr]

/-- If one category only has filters, it is the active one. -/
theorem active_eq_singleton {f : Filters} {c : Category} (h : ∀ d, f.entries d ≠ [] ↔ d = c) :
    f.active = [c] := by
  have hone : ∀ d ∈ Category.all, (!(f.entries d).isEmpty) = decide (d = c) := by
    intro d _
    rw [Bool.eq_iff_iff, decide_eq_true_eq, ← h d]
    simp
  rw [Filters.active, List.filter_congr hone]
  cases c <;> rfl

theorem active_only {f : Filters} {c : Category} (h : c ∈ f.active) : (f.only c).active = [c] := by
  apply active_eq_singleton
  intro d
  rw [entries_only]
  by_cases hd : d = c
  · have hne := mem_active.1 h
    simp [hd, hne]
  · simp [hd]

theorem fit_only {catalog : Catalog} {f : Filters} (h : f.Fit catalog) (c : Category) :
    (f.only c).Fit catalog :=
  fun r hr => h r (List.mem_of_mem_filter hr)

/-- Some filters of one category, and nothing else. -/
def Filters.ofEntries (c : Category) (es : List Entry) : Filters := ⟨es.map (Prod.mk c)⟩

theorem entries_ofEntries (c d : Category) (es : List Entry) :
    (Filters.ofEntries c es).entries d = if d = c then es else [] := by
  by_cases h : d = c
  · subst h
    rw [if_pos rfl]
    exact under_map_same d es
  · rw [if_neg h]
    exact under_map_other (Ne.symm h) es

theorem active_ofEntries (c : Category) {es : List Entry} (hne : es ≠ []) :
    (Filters.ofEntries c es).active = [c] := by
  apply active_eq_singleton
  intro d
  rw [entries_ofEntries]
  by_cases hd : d = c
  · simp [hd, hne]
  · simp [hd]

theorem fit_ofEntries {catalog : Catalog} {c : Category} {es : List Entry}
    (h : ∀ e ∈ es, e.Fits catalog c) : (Filters.ofEntries c es).Fit catalog := by
  intro r hr
  obtain ⟨e, he, rfl⟩ := List.mem_map.1 hr
  exact h e he

/-- Whatever values are entered, some catalog has them in the vocabulary of the category. -/
theorem exists_catalog_fits {c : Category} {vocabulary : String}
    (hc : Search.vocabularyOf? c = some vocabulary) {es : List Entry}
    (hv : ∀ e ∈ es, e.isValue = true) : ∃ catalog, ∀ e ∈ es, e.Fits catalog c := by
  refine ⟨⟨[(vocabulary, .ofList (Mode.all.flatMap fun m => valuesOf m es))], []⟩, fun e he => ?_⟩
  cases e with
  | comparison l o r => cases hv _ he
  | value v m =>
    refine .member m hc (contains_of_mem (w := .ofList (Mode.all.flatMap fun m => valuesOf m es))
      ?_ (List.mem_eraseDups.2 (List.mem_flatMap.2 ⟨m, ?_, mem_valuesOf.2 he⟩)))
    · simp [Catalog.vocabulary?]
    · cases m <;> decide

/-! ## Selected printings -/

/-- Keys of stored printings tell them apart. -/
theorem mem_keys_filter {t : Tables} (ht : t.PrintingsDistinct) {p : PrintingRow → Bool}
    {r : PrintingRow} (hr : r ∈ t.printings) :
    r.key ∈ (t.printings.filter p).map PrintingRow.key ↔ p r = true := by
  rw [List.mem_map]
  constructor
  · rintro ⟨r', hr', hkey⟩
    obtain ⟨hmem, hp⟩ := List.mem_filter.1 hr'
    rw [← List.inj_on_of_nodup_map ht hmem hr hkey]
    exact hp
  · intro hp
    exact ⟨r, List.mem_filter.2 ⟨hr, hp⟩, rfl⟩

/-- A search selects the stored printings that have a property, each of them once, and
nothing else. -/
def Tables.Selects (t : Tables) (s : Search) (P : PrintingRow → Prop) : Prop :=
  ∃ keys, t.select s = .ok keys ∧ keys.Nodup ∧ (∀ k ∈ keys, ∃ r ∈ t.printings, r.key = k) ∧
    ∀ r ∈ t.printings, r.key ∈ keys ↔ P r

/-- A property that says of every stored printing whether all active fragments admit it is
what a search selects by. -/
theorem selects_of_fit {catalog : Catalog} {s : Search} (hfit : s.filters.Fit catalog)
    {t : Tables} (ht : t.PrintingsDistinct) {P : PrintingRow → Prop}
    (hP : ∀ r ∈ t.printings, (∀ c ∈ s.filters.active,
      ((fragmentOf ⟨aliasName 0, s.catalog.blocks⟩ c (s.filters.entries c)).build 1).Admits
        t.relations r.record) ↔ P r) : t.Selects s P := by
  obtain ⟨p, hselect, hp⟩ := select_of_fit hfit t
  refine ⟨_, hselect, ht.sublist (List.filter_sublist.map _), ?_, ?_⟩
  · intro k hk
    obtain ⟨r, hr, hkey⟩ := List.mem_map.1 hk
    exact ⟨r, List.mem_of_mem_filter hr, hkey⟩
  · intro r hr
    rw [mem_keys_filter ht hr, hp, hP r hr]

/-- With filters of one category, that of its fragment is enough. -/
theorem selects_ofEntries {fitting catalog : Catalog} {c : Category} {es : List Entry}
    (hne : es ≠ []) (hfit : ∀ e ∈ es, e.Fits fitting c) {t : Tables} (ht : t.PrintingsDistinct)
    {P : PrintingRow → Prop}
    (hP : ∀ r ∈ t.printings, ((fragmentOf ⟨aliasName 0, catalog.blocks⟩ c es).build 1).Admits
      t.relations r.record ↔ P r) : t.Selects ⟨catalog, .ofEntries c es⟩ P := by
  refine selects_of_fit (fit_ofEntries hfit) ht fun r hr => ?_
  have hentries : (Filters.ofEntries c es).entries c = es :=
    (entries_ofEntries c c es).trans (if_pos rfl)
  rw [active_ofEntries c hne, List.forall_mem_singleton, hentries]
  exact hP r hr

/-- If the fragment of each call's category admits the printings that have a property for each
of its filters, then accepted calls select the printings that have it for what every call
entered. -/
theorem selects_accepted {catalog : Catalog} {calls : List (Call × List Argument)}
    (hnamed : ∀ k ∈ calls, k.1.IsNamed) {s : Search}
    (h : (Search.start catalog).accept calls = .ok s) {t : Tables} (ht : t.PrintingsDistinct)
    {Q : PrintingRow → Entry → Prop}
    (hQ : ∀ k ∈ calls, ∀ es, es ≠ [] → (∀ e ∈ es, e.Fits catalog k.1.category) →
      ∀ r ∈ t.printings,
        (((fragmentOf ⟨aliasName 0, catalog.blocks⟩ k.1.category es).build 1).Admits t.relations
          r.record ↔ ∀ e ∈ es, Q r e)) :
    t.Selects s fun r => ∀ k ∈ calls, ∃ c e, k.1.filter? k.2 = some (c, e) ∧ Q r e := by
  obtain ⟨hall, rfl⟩ := (accept_eq_ok hnamed).1 h
  have hfit := fit_entered hall
  refine selects_of_fit (s := ⟨catalog, entered calls⟩) hfit ht fun r hr => ?_
  have hadmits : ∀ c ∈ (entered calls).active,
      (((fragmentOf ⟨aliasName 0, catalog.blocks⟩ c ((entered calls).entries c)).build 1).Admits
        t.relations r.record ↔ ∀ e ∈ (entered calls).entries c, Q r e) := by
    intro c hc
    have hne := mem_active.1 hc
    -- some call entered a filter of the category, so the category is that call's
    obtain ⟨k, hk, rfl⟩ := exists_call_of_entries hne
    exact hQ k hk _ hne (fun e he => fits_of_mem_entries hfit he) r hr
  rw [forall₂_congr hadmits]
  constructor
  · intro hpass k hk
    obtain ⟨c, e, hentry, -⟩ := hall k hk
    have he := mem_entries_entered.2 ⟨k, hk, hentry⟩
    exact ⟨c, e, hentry, hpass c (mem_active.2 (List.ne_nil_of_mem he)) e he⟩
  · intro hpass c _ e he
    obtain ⟨k, hk, hentry⟩ := mem_entries_entered.1 he
    obtain ⟨c', e', hentry', hQ⟩ := hpass k hk
    rw [hentry, Option.some.injEq, Prod.mk.injEq] at hentry'
    exact hentry'.2 ▸ hQ

/-- **Categories narrow independently.** After any changes of the archive, a search that
any requests built over any catalog selects stored printings only, and each at most once.
It selects a printing exactly if the search with the filters of one active category
selects it, for each active category; without filters it selects every printing. -/
theorem select_conjunctive (changes : List Change) (catalog : Catalog) (requests : List Request) :
    ∃ keys : List PrintingKey,
      (Database.after changes).tables.select (Search.after catalog requests) = .ok keys ∧
      keys.Nodup ∧
      (∀ k ∈ keys, k ∈ (Database.after changes).tables.printings.map PrintingRow.key) ∧
      (∀ r ∈ (Database.after changes).tables.printings, r.key ∈ keys ↔
        ∀ c ∈ (Search.after catalog requests).filters.active, ∃ own,
          (Database.after changes).tables.select ((Search.after catalog requests).only c) =
            .ok own ∧ r.key ∈ own) ∧
      ((Search.after catalog requests).filters.active = [] →
        keys = (Database.after changes).tables.printings.map PrintingRow.key) := by
  obtain ⟨-, hfit⟩ := fit_after catalog requests
  have hdistinct := printings_nodup_after changes
  obtain ⟨p, hselect, hp⟩ := select_of_fit hfit (Database.after changes).tables
  refine ⟨_, hselect, ?_, ?_, ?_, ?_⟩
  · exact hdistinct.sublist (List.filter_sublist.map _)
  · intro k hk
    exact (List.filter_sublist.map PrintingRow.key).subset hk
  · intro r hr
    rw [mem_keys_filter hdistinct hr, hp]
    apply forall₂_congr
    intro c hc
    -- alone, the category has the same filters, and no other category is active
    obtain ⟨q, hown, hq⟩ := select_of_active (s := (Search.after catalog requests).only c)
      (fit_only hfit c) (active_only hc) (Database.after changes).tables
    have hentries : ((Search.after catalog requests).only c).filters.entries c =
        (Search.after catalog requests).filters.entries c :=
      (entries_only _ c c).trans (if_pos rfl)
    have hadmits : q r = true ↔ _ := hq r
    rw [hentries] at hadmits
    constructor
    · intro h
      exact ⟨_, hown, (mem_keys_filter hdistinct hr).2 (hadmits.2 h)⟩
    · rintro ⟨own, hsame, hmem⟩
      obtain rfl := Except.ok.inj (hown.symm.trans hsame)
      exact hadmits.1 ((mem_keys_filter hdistinct hr).1 hmem)
  · intro hnone
    -- no active category, so nothing is asked of a printing
    have hall : ∀ r ∈ (Database.after changes).tables.printings, p r = true := by
      intro r _
      rw [hp, hnone]
      intro c hc
      exact absurd hc List.not_mem_nil
    rw [List.filter_eq_self.2 hall]

end CardArchive
