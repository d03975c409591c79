import CardArchive.Proofs.Distinct
import CardArchive.Proofs.Filter.Scoped
import CardArchive.Proofs.Statement.Reading

/-!
# What the text of a search depends on

The categories are compiled in an order of their own, and each sees only its own filters:
words and values by mode, where a repeated one counts at its first place, and comparisons in
the order of entry. So the text of a search is the same for all ways in which the calls of
different categories and modes can be interleaved.

## What this module delivers

* `Filters.Alike`: filters that count the same.
* `compose_congr`, `compose_eq_ok`: filters that count the same have a text, and the same one.
* `Search.accept` and `entered`: a run of accepted calls, and what the calls enter.
* `accept_eq_ok`: the search after accepted calls.
* `text_of_calls`: the text after accepted calls.
-/

set_option autoImplicit false

namespace CardArchive

open Sql

/-! ## Filters that count the same -/

/-- Filters that count the same: the same values in every mode of a category, each at its
first place, and the same comparisons. -/
structure Filters.Alike (f g : Filters) : Prop where
  values : ∀ c, c.comparesNumbers = false → ∀ m,
    (valuesOf m (f.entries c)).eraseDups = (valuesOf m (g.entries c)).eraseDups
  comparisons : ∀ c, c.comparesNumbers = true → f.entries c = g.entries c

section

variable {catalog : Catalog} {f g : Filters}

theorem split_congr (h : f.Alike g) {c : Category} (hc : c.comparesNumbers = false) :
    split (f.entries c) = split (g.entries c) := by
  simp only [split, h.values c hc]

/-- A category has a filter exactly if one of its modes has a value. -/
theorem entries_ne_nil_iff (hf : f.Fit catalog) {c : Category} (hc : c.comparesNumbers = false) :
    f.entries c ≠ [] ↔ ∃ m v, v ∈ (split (f.entries c)).byMode m := by
  constructor
  · intro hne
    exact exists_mem_byMode hne fun e he => isValue_of_fits hc (fits_of_mem_entries hf he)
  · rintro ⟨m, v, hv⟩
    exact List.ne_nil_of_mem (mem_byMode_split.1 hv)

theorem active_congr (hf : f.Fit catalog) (hg : g.Fit catalog) (h : f.Alike g) :
    f.active = g.active := by
  unfold Filters.active
  apply List.filter_congr
  intro c _
  cases hc : c.comparesNumbers with
  | true => rw [h.comparisons c hc]
  | false =>
    have hsame : f.entries c ≠ [] ↔ g.entries c ≠ [] := by
      rw [entries_ne_nil_iff hf hc, entries_ne_nil_iff hg hc, split_congr h hc]
    rw [Bool.eq_iff_iff]
    simpa using hsame

/-- The fragment of a category of words or values depends on the values by mode alone. -/
theorem fragmentOf_congr (ctx : Context) {c : Category} (hc : c.comparesNumbers = false)
    {es es' : List Entry} (h : split es = split es') :
    fragmentOf ctx c es = fragmentOf ctx c es' := by
  cases c with
  | stat | statVersusStat | manaType => cases hc
  | _ => simp only [fragmentOf, h]

/-- Filters that count the same become the same fragments. -/
theorem activeFragments_congr (blocks : Blocks) (hf : f.Fit catalog) (hg : g.Fit catalog)
    (h : f.Alike g) : activeFragments blocks f = activeFragments blocks g := by
  unfold activeFragments fragmentsOf
  rw [active_congr hf hg h]
  congr 1
  apply List.map_congr_left
  intro c _
  cases hc : c.comparesNumbers with
  | true => rw [h.comparisons c hc]
  | false => exact fragmentOf_congr _ hc (split_congr h hc)

/-- Filters that count the same have the same text. -/
theorem compose_congr (blocks : Blocks) (hf : f.Fit catalog) (hg : g.Fit catalog)
    (h : f.Alike g) : compose blocks f = compose blocks g := by
  unfold compose
  rw [statement_eq blocks hf, statement_eq blocks hg, activeFragments_congr blocks hf hg h]

/-- Filters that their categories can hold have a text. -/
theorem compose_eq_ok (blocks : Blocks) (hf : f.Fit catalog) :
    ∃ text, compose blocks f = .ok text := by
  obtain ⟨text, htext, -⟩ := text_readable (statement_scoped blocks hf)
  refine ⟨text, ?_⟩
  rw [compose, statement_eq blocks hf, ok_bind, mapError_eq_ok]
  exact htext

/-- A value that its mode has already changes nothing. -/
theorem alike_add {c : Category} {v : String} {m : Mode} (hf : f.Fit catalog)
    (h : (c, .value v m) ∈ f.recorded) : (f.add c (.value v m)).Alike f := by
  have hmem := mem_entries.2 h
  refine ⟨fun d _ n => ?_, fun d hd => ?_⟩
  · rw [Filters.entries_add]
    by_cases hcd : c = d
    · subst hcd
      rw [if_pos rfl, valuesOf_append, List.eraseDups_append]
      by_cases hmn : m = n
      · subst hmn
        have hv : v ∈ valuesOf m (f.entries c) := mem_valuesOf.2 hmem
        simp [valuesOf, List.removeAll, hv]
      · simp [valuesOf, hmn]
    · rw [if_neg hcd]
  · -- a category of comparisons holds no value
    have hcd : c ≠ d := by
      rintro rfl
      rw [comparesNumbers_of_fits (fits_of_mem_entries hf hmem)] at hd
      cases hd
    rw [Filters.entries_add, if_neg hcd]

end

/-! ## Runs of accepted calls -/

/-- The search after some calls, if each of them is accepted. -/
def Search.accept (s : Search) : List (Call × List Argument) → Except Failure Search
  | [] => .ok s
  | (k, args) :: rest => do
    let next ← k.apply s args
    next.accept rest

/-- What some calls enter, as their arguments say. -/
def entered (calls : List (Call × List Argument)) : Filters :=
  ⟨calls.filterMap fun k => k.1.filter? k.2⟩

theorem mem_entries_entered {calls : List (Call × List Argument)} {c : Category} {e : Entry} :
    e ∈ (entered calls).entries c ↔ ∃ k ∈ calls, k.1.filter? k.2 = some (c, e) := by
  rw [mem_entries, entered, List.mem_filterMap]

/-- Where something was entered, it was by a call of the category. -/
theorem exists_call_of_entries {calls : List (Call × List Argument)} {c : Category}
    (h : (entered calls).entries c ≠ []) : ∃ k ∈ calls, k.1.category = c := by
  obtain ⟨e, he⟩ := List.exists_mem_of_ne_nil _ h
  obtain ⟨k, hk, hentry⟩ := mem_entries_entered.1 he
  exact ⟨k, hk, (category_of_filter? hentry).symm⟩

/-- Calls each of which has a name and enters a filter that its category can hold. -/
def AllFit (catalog : Catalog) (calls : List (Call × List Argument)) : Prop :=
  ∀ k ∈ calls, ∃ c e, k.1.filter? k.2 = some (c, e) ∧ e.Fits catalog c

theorem fit_entered {catalog : Catalog} {calls : List (Call × List Argument)}
    (h : AllFit catalog calls) : (entered calls).Fit catalog := by
  intro r hr
  obtain ⟨k, hk, hentry⟩ := List.mem_filterMap.1 hr
  obtain ⟨c, e, hsome, hfits⟩ := h k hk
  rw [hentry, Option.some.injEq] at hsome
  rw [hsome]
  exact hfits

/-- A run of calls is accepted exactly if each call enters a filter that its category can
hold. Then the search holds what each of them entered, in order. -/
theorem accept_eq_ok {calls : List (Call × List Argument)} (hnamed : ∀ k ∈ calls, k.1.IsNamed)
    {s next : Search} :
    s.accept calls = .ok next ↔ AllFit s.catalog calls ∧
      next = ⟨s.catalog, ⟨s.filters.recorded ++ (entered calls).recorded⟩⟩ := by
  induction calls generalizing s with
  | nil =>
    simp only [Search.accept, Except.ok.injEq, entered, List.filterMap_nil, List.append_nil]
    constructor
    · rintro rfl
      exact ⟨fun k hk => absurd hk List.not_mem_nil, rfl⟩
    · rintro ⟨-, rfl⟩
      rfl
  | cons k rest ih =>
    obtain ⟨hk, hrest⟩ := List.forall_mem_cons.1 hnamed
    simp only [Search.accept, bind_eq_ok, apply_eq_ok hk, AllFit, List.forall_mem_cons]
    constructor
    · rintro ⟨_, ⟨c, e, hentry, hfits, rfl⟩, haccept⟩
      obtain ⟨hall, rfl⟩ := (ih hrest).1 haccept
      refine ⟨⟨⟨c, e, hentry, hfits⟩, hall⟩, ?_⟩
      simp [entered, hentry, Search.record, Filters.add]
    · rintro ⟨⟨⟨c, e, hentry, hfits⟩, hall⟩, rfl⟩
      refine ⟨s.record c e, ⟨c, e, hentry, hfits, rfl⟩, (ih hrest).2 ⟨hall, ?_⟩⟩
      simp [entered, hentry, Search.record, Filters.add]

/-- **Order between categories is free.** Two runs of accepted calls on new searches over
one catalog give the same text if in each category of words or values every mode was given
the same values in the same order, where a repeated one counts at its first place, and each
category of comparisons was given the same comparisons in the same order. A further call
with a value that its mode has already is accepted and changes nothing. -/
theorem text_of_calls (catalog : Catalog) {calls calls' : List (Call × List Argument)}
    (hnamed : ∀ k ∈ calls, k.1.IsNamed) (hnamed' : ∀ k ∈ calls', k.1.IsNamed) {s s' : Search}
    (h : (Search.start catalog).accept calls = .ok s)
    (h' : (Search.start catalog).accept calls' = .ok s')
    (halike : (entered calls).Alike (entered calls')) :
    (∃ text, s.text? = .ok text ∧ s'.text? = .ok text) ∧
    ∀ (k : Call) (args : List Argument) (c : Category) (v : String) (m : Mode), k.IsNamed →
      k.filter? args = some (c, .value v m) → (c, .value v m) ∈ (entered calls).recorded →
      ∃ next, k.apply s args = .ok next ∧ next.text? = s.text? := by
  obtain ⟨hfit, rfl⟩ := (accept_eq_ok hnamed).1 h
  obtain ⟨hfit', rfl⟩ := (accept_eq_ok hnamed').1 h'
  have hf := fit_entered hfit
  refine ⟨?_, ?_⟩
  · obtain ⟨text, htext⟩ := compose_eq_ok catalog.blocks hf
    refine ⟨text, htext, ?_⟩
    rw [compose_congr catalog.blocks hf (fit_entered hfit') halike] at htext
    exact htext
  · intro k args c v m hk hentry hmem
    have hfits := hf _ hmem
    refine ⟨_, (apply_eq_ok hk).2 ⟨c, _, hentry, hfits, rfl⟩, ?_⟩
    exact compose_congr catalog.blocks (fit_add hf hfits) hf (alike_add hf hmem)

/-- Two words, a forbidden color and a comparison, in two orders; the second run names the
modes and the statistic otherwise and enters the first word once more. -/
theorem text_of_mixedCalls :
    let catalog : Catalog := ⟨[("colors", .ofList ["U", "R"])], []⟩
    let calls : List (Call × List Argument) :=
      [(.value .name, [.ofText "air"]), (.value .color, [.ofText "U", .mode .disallow]),
       (.value .name, [.ofText "elemental"]),
       (.stat, [.ofText "CMC", .ofText ">", .value (.int 2)])]
    let mixed : List (Call × List Argument) :=
      [(.stat, [.stat .cmc, .operator .greater, .value (.int 2)]),
       (.value .name, [.ofText "air", .value (.bool true)]),
       (.value .name, [.ofText "elemental"]),
       (.value .color, [.ofText "U", .ofText "disallow"]),
       (.value .name, [.ofText "air", .ofText "must_include"])]
    ∃ s s' text, (Search.start catalog).accept calls = .ok s ∧
      (Search.start catalog).accept mixed = .ok s' ∧ s.text? = .ok text ∧ s'.text? = .ok text ∧
      ∃ next, (Call.value .name).apply s [.ofText "air"] = .ok next ∧ next.text? = s.text? := by
  intro catalog calls mixed
  have hnamed : ∀ k ∈ calls, k.1.IsNamed := by simp [calls, Category.comparesNumbers]
  have hmixed : ∀ k ∈ mixed, k.1.IsNamed := by simp [mixed, Category.comparesNumbers]
  have halike : (entered calls).Alike (entered mixed) := by
    refine ⟨fun c _ m => ?_, fun c hc => ?_⟩
    · cases c <;> cases m <;> rfl
    · cases c with
      | stat | statVersusStat | manaType => rfl
      | _ => cases hc
  have haccept : (Search.start catalog).accept calls = .ok ⟨catalog, entered calls⟩ := rfl
  have haccept' : (Search.start catalog).accept mixed = .ok ⟨catalog, entered mixed⟩ := rfl
  obtain ⟨⟨text, h, h'⟩, hagain⟩ := text_of_calls catalog hnamed hmixed haccept haccept' halike
  exact ⟨_, _, text, haccept, haccept', h, h',
    hagain (.value .name) [.ofText "air"] .name "air" .mustInclude (isNamed_value_iff.2 rfl) rfl
      List.mem_cons_self⟩

end CardArchive
