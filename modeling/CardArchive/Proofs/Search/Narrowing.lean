import CardArchive.Proofs.Filter.Laws

/-!
# Filters that narrow a search

A further filter that is no alternative asks more of a printing, in each of the three laws but
for one slip: where values are spread over printings, a printing passes with any of the values
that are asked for, and a new required value is one more of these. So a search can gain
printings by a required set, block, artist or rarity beside others. What it gains has the new
value and none of the earlier ones. The card of a gained printing has an earlier value on
another printing, so if no other filter tests printings, and no printing has values both
asked for and forbidden, then the card was selected before.

## What this module delivers

* `Widens`: the filters by which a category asks for one more value than before.
* `Tables.JudgesCards`: searches that select a card whichever printing has the value.
* `accepts_of_append`, `passes_of_append`: what a law with a further filter says of the one
  without.
* `exists_sibling`: an earlier printing of the card of a gained one.
* `narrowing_calls`: the printings and the cards that a search selects after a further call.
* `card_gained`: two searches that gain a card.
-/

set_option autoImplicit false

namespace CardArchive

/-! ## Laws with a further filter -/

/-- Whether a further filter asks for one more value of a category that is spread over
printings, beside the values that are asked for already. -/
def Widens (c : Category) (es : List Entry) (e : Entry) : Prop :=
  c.isSpread = true ∧ ∃ v, e = .value v .mustInclude ∧ ¬AskedFor es v ∧ ∃ w, AskedFor es w

/-- Whether what a category asks of printings can be met by any printing of a card: no filter
of another category tests printings, and no stored printing has both an asked and a forbidden
value. -/
structure Tables.JudgesCards (t : Tables) (f : Filters) (c : Category) : Prop where
  alone : ∀ d ∈ f.active, d.isCardLevel = false → d = c
  clean : ∀ q ∈ t.printings, ∀ w, AskedFor (f.entries c) w → t.Has c q w →
    ∀ u, .value u .disallow ∈ f.entries c → ¬t.Has c q u

section

variable {es : List Entry} {e : Entry}

theorem asked_append {v : String} (h : AskedFor es v) : AskedFor (es ++ [e]) v :=
  h.imp (List.mem_append_left _) (List.mem_append_left _)

/-- A filter that is no alternative adds none. -/
theorem mem_of_mem_append (hother : ∀ v, e ≠ .value v .oneOf) {v : String}
    (h : .value v .oneOf ∈ es ++ [e]) : .value v .oneOf ∈ es := by
  rcases List.mem_append.1 h with h | h
  · exact h
  · exact absurd (List.mem_singleton.1 h).symm (hother v)

/-- A value that is asked for after a further filter was asked for before, or the filter
requires it. -/
theorem asked_of_append (hother : ∀ v, e ≠ .value v .oneOf) {v : String}
    (h : AskedFor (es ++ [e]) v) : AskedFor es v ∨ e = .value v .mustInclude := by
  rcases h with h | h
  · rcases List.mem_append.1 h with h | h
    · exact .inl (.inl h)
    · exact .inr (List.mem_singleton.1 h).symm
  · exact .inl (.inr (mem_of_mem_append hother h))

variable (hother : ∀ v, e ≠ .value v .oneOf)
include hother

/-- Values that are judged one by one are accepted by fewer with a further filter. -/
theorem accepts_of_append {has : String → Prop} (h : Accepts (es ++ [e]) has) :
    Accepts es has where
  required v hv := h.required v (List.mem_append_left _ hv)
  forbidden v hv := h.forbidden v (List.mem_append_left _ hv)
  alternative := by
    rintro ⟨v, hv⟩
    obtain ⟨w, hw, hhas⟩ := h.alternative ⟨v, List.mem_append_left _ hv⟩
    exact ⟨w, mem_of_mem_append hother hw, hhas⟩

section

variable {t : Tables} {has : PrintingRow → String → Prop} {r : PrintingRow}

/-- What a card has by its printings, it had to have before a further filter. So each printing
of the card of one that passes now has passed before, if it has an asked value and no
forbidden one. -/
theorem acceptsPrinting_of_append (h : t.AcceptsPrinting has (es ++ [e]) r) {q : PrintingRow}
    (hcard : q.card = r.card) (hforbidden : ∀ v, .value v .disallow ∈ es → ¬has q v)
    (hown : (∃ v, AskedFor es v) → ∃ v, AskedFor es v ∧ has q v) : t.AcceptsPrinting has es q where
  forbidden := hforbidden
  own := hown
  required := by
    intro v hv
    rw [hcard]
    exact h.required v (List.mem_append_left _ hv)
  alternative := by
    rintro ⟨v, hv⟩ ⟨w, hw⟩
    obtain ⟨u, hu, hhas⟩ := h.alternative ⟨v, List.mem_append_left _ hv⟩
      ⟨w, List.mem_append_left _ hw⟩
    rw [hcard]
    exact ⟨u, mem_of_mem_append hother hu, hhas⟩

/-- A printing that passes now had passed before, or the filter requires a value that the
printing has, and it has none of the values that were asked for then. -/
theorem acceptsPrinting_or_gained (h : t.AcceptsPrinting has (es ++ [e]) r) :
    t.AcceptsPrinting has es r ∨ ∃ v, e = .value v .mustInclude ∧ has r v ∧
      (∃ w, AskedFor es w) ∧ ∀ w, AskedFor es w → ¬has r w := by
  by_cases hown : (∃ v, AskedFor es v) → ∃ v, AskedFor es v ∧ has r v
  · refine .inl (acceptsPrinting_of_append hother h rfl (fun v hv => ?_) hown)
    exact h.forbidden v (List.mem_append_left _ hv)
  · -- it has none of the earlier values, so the one that lets it in is the new one
    obtain ⟨⟨w, hw⟩, hnone⟩ := Classical.not_imp.1 hown
    obtain ⟨v, hv, hhas⟩ := h.own ⟨w, asked_append hw⟩
    refine .inr ⟨v, ?_, hhas, ⟨w, hw⟩, fun u hu hhas => hnone ⟨u, hu, hhas⟩⟩
    exact (asked_of_append hother hv).resolve_left fun hv => hnone ⟨v, hv, hhas⟩

omit hother in
/-- The card of a printing that passes with a further required value has a value that was
asked for before on some printing. -/
theorem exists_printing_asked {v : String}
    (h : t.AcceptsPrinting has (es ++ [.value v .mustInclude]) r) (hasked : ∃ w, AskedFor es w) :
    ∃ w, AskedFor es w ∧ t.HasPrinting has r.card w := by
  obtain ⟨w, hw | hw⟩ := hasked
  · exact ⟨w, .inl hw, h.required w (List.mem_append_left _ hw)⟩
  · -- beside the new value, an alternative has to be on the card
    obtain ⟨u, hu, hhas⟩ := h.alternative ⟨v, by simp⟩ ⟨w, List.mem_append_left _ hw⟩
    exact ⟨u, .inr (mem_of_mem_append (by simp) hu), hhas⟩

omit hother in
/-- If no printing has an asked value and a forbidden one, a printing of the same card has
passed before. -/
theorem exists_sibling {v : String}
    (h : t.AcceptsPrinting has (es ++ [.value v .mustInclude]) r) (hasked : ∃ w, AskedFor es w)
    (hclean : ∀ q ∈ t.printings, ∀ w, AskedFor es w → has q w →
      ∀ u, .value u .disallow ∈ es → ¬has q u) :
    ∃ q ∈ t.printings, q.card = r.card ∧ t.AcceptsPrinting has es q := by
  obtain ⟨w, hw, q, hq, hcard, hhas⟩ := exists_printing_asked h hasked
  have hforbidden : ∀ u, .value u .disallow ∈ es → ¬has q u := hclean q hq w hw hhas
  exact ⟨q, hq, hcard,
    acceptsPrinting_of_append (by simp) h hcard hforbidden fun _ => ⟨w, hw, hhas⟩⟩

end

/-- A printing that passes a law with a further filter has passed it before, or the filter is
a new required value that the printing has instead of the values asked for before. -/
theorem passes_of_append {t : Tables} {c : Category} {r : PrintingRow}
    (h : t.Passes c (es ++ [e]) r) :
    t.Passes c es r ∨ Widens c es e ∧ ∃ v, e = .value v .mustInclude ∧ t.Has c r v ∧
      ∀ w, AskedFor es w → ¬t.Has c r w := by
  cases hnumbers : c.comparesNumbers with
  | true =>
    rw [passes_of_comparesNumbers hnumbers] at h ⊢
    exact .inl (List.forall_mem_append.1 h).1
  | false =>
    cases hspread : c.isSpread with
    | false =>
      rw [passes_of_values hnumbers hspread] at h ⊢
      exact .inl (accepts_of_append hother h)
    | true =>
      rw [passes_of_isSpread hspread] at h ⊢
      rcases acceptsPrinting_or_gained hother h with h | ⟨v, he, hhas, hasked, hnone⟩
      · exact .inl h
      · exact .inr ⟨⟨hspread, v, he, fun hv => hnone v hv hhas, hasked⟩, v, he, hhas, hnone⟩

end

/-! ## Searches with a further filter -/

section

variable {t : Tables} {f : Filters} {c : Category} {e : Entry} {r : PrintingRow}
  (hother : ∀ v, e ≠ .value v .oneOf)

/-- A further filter changes what its own category asks, and nothing else. -/
theorem forall_passes_add :
    (∀ d, t.Passes d ((f.add c e).entries d) r) ↔
      t.Passes c (f.entries c ++ [e]) r ∧ ∀ d, d ≠ c → t.Passes d (f.entries d) r := by
  simp only [Filters.entries_add]
  constructor
  · intro h
    refine ⟨?_, fun d hd => ?_⟩
    · have hown := h c
      rwa [if_pos rfl] at hown
    · have hpass := h d
      rwa [if_neg (Ne.symm hd)] at hpass
  · rintro ⟨hown, h⟩ d
    by_cases hd : c = d
    · subst hd
      rw [if_pos rfl]
      exact hown
    · rw [if_neg hd]
      exact h d (Ne.symm hd)

include hother

/-- A printing that is selected with a further filter was selected before, or it is gained by
a filter that widens its category. -/
theorem passes_or_gained (h : ∀ d, t.Passes d ((f.add c e).entries d) r) :
    (∀ d, t.Passes d (f.entries d) r) ∨ Widens c (f.entries c) e ∧
      ∃ v, e = .value v .mustInclude ∧ t.Has c r v ∧
        ∀ w, AskedFor (f.entries c) w → ¬t.Has c r w := by
  obtain ⟨hown, hothers⟩ := forall_passes_add.1 h
  rcases passes_of_append hother hown with hown | hgained
  · refine .inl fun d => ?_
    by_cases hd : d = c
    · subst hd
      exact hown
    · exact hothers d hd
  · exact .inr hgained

omit hother in
/-- The card of a gained printing was selected before, if no other category tests printings
and no printing has both an asked and a forbidden value. -/
theorem exists_passing_sibling (hwidens : Widens c (f.entries c) e) (hcards : t.JudgesCards f c)
    (h : ∀ d, t.Passes d ((f.add c e).entries d) r) :
    ∃ q ∈ t.printings, q.card = r.card ∧ ∀ d, t.Passes d (f.entries d) q := by
  obtain ⟨hspread, v, rfl, -, hasked⟩ := hwidens
  obtain ⟨hown, hothers⟩ := forall_passes_add.1 h
  rw [passes_of_isSpread hspread] at hown
  obtain ⟨q, hq, hcard, haccepts⟩ := exists_sibling hown hasked hcards.clean
  refine ⟨q, hq, hcard, fun d => ?_⟩
  by_cases hd : d = c
  · subst hd
    exact (passes_of_isSpread hspread).2 haccepts
  · cases hlevel : d.isCardLevel with
    | true => exact (passes_of_card hlevel hcard.symm).1 (hothers d hd)
    | false =>
      -- another category of printings has no filters
      rw [entries_of_not_active fun hactive => hd (hcards.alone d hactive hlevel)]
      exact passes_nil

end

/-- **What is not an alternative narrows a search, unless it is one more value of printings.**
After any changes of the archive, over the catalog of what is stored, let any requests have
built a search, and let a further call be accepted that enters a required or a forbidden value
or a comparison. Unless it requires a set, block, artist or rarity that is new to a category in
which others are asked for, the printings selected afterwards were selected before. In that
case, what is gained has the new value and none of the earlier ones; and the cards selected
afterwards were still selected before if any printing of a card can meet what the category
asks. -/
theorem narrowing_calls (changes : List Change) :
    let t := (Database.after changes).tables
    ∃ catalog, t.catalog = .ok catalog ∧
      ∀ (requests : List Request) (k : Call) (args : List Argument) (next : Search),
        let s := Search.after catalog requests
        let c := k.category
        k.IsNamed → k.apply s args = .ok next →
        ∃ e, k.filter? args = some (c, e) ∧ next = s.record c e ∧
          ((∀ v, e ≠ .value v .oneOf) → ∃ before after,
            t.select s = .ok before ∧ t.select next = .ok after ∧
            (¬Widens c (s.filters.entries c) e → after ⊆ before) ∧
            (¬Widens c (s.filters.entries c) e ∨ t.JudgesCards s.filters c →
              ∀ gained ∈ after, ∃ key ∈ before, key.card = gained.card) ∧
            ∀ r ∈ t.printings, r.key ∈ after → r.key ∉ before →
              ∃ v, e = .value v .mustInclude ∧ t.Has c r v ∧
                ∀ w, AskedFor (s.filters.entries c) w → ¬t.Has c r w) := by
  intro t
  obtain ⟨catalog, hcatalog, hselects⟩ := catalog_selects changes
  refine ⟨catalog, hcatalog, fun requests k args next => ?_⟩
  intro s c hk happly
  obtain ⟨d, e, hentry, hfits, rfl⟩ := (apply_eq_ok hk).1 happly
  obtain rfl : d = c := category_of_filter? hentry
  obtain ⟨hsame, hfit⟩ := fit_after catalog requests
  have hsame : s.catalog = catalog := hsame
  rw [hsame] at hfits
  refine ⟨e, hentry, rfl, fun hother => ?_⟩
  -- both searches are built by accepted calls, so each selects by its laws
  obtain ⟨before, hbefore, -, -, hlaw⟩ := hselects s hsame hfit
  obtain ⟨after, hafter, -, hstored, hlaw'⟩ :=
    hselects (s.record c e) hsame (fit_add hfit hfits)
  -- what is selected afterwards was selected before, or is gained
  have hgained : ∀ r ∈ t.printings, r.key ∈ after → r.key ∈ before ∨
      Widens c (s.filters.entries c) e ∧ ∃ v, e = .value v .mustInclude ∧ t.Has c r v ∧
        ∀ w, AskedFor (s.filters.entries c) w → ¬t.Has c r w := by
    intro r hr hkey
    exact (passes_or_gained hother ((hlaw' r hr).1 hkey)).imp_left (hlaw r hr).2
  have hnarrow : ¬Widens c (s.filters.entries c) e → after ⊆ before := by
    intro hwidens k hk
    obtain ⟨r, hr, rfl⟩ := hstored k hk
    exact (hgained r hr hk).resolve_right fun h => hwidens h.1
  refine ⟨before, after, hbefore, hafter, hnarrow, fun hcards k hk => ?_, ?_⟩
  · obtain ⟨r, hr, rfl⟩ := hstored k hk
    rcases hgained r hr hk with hkey | ⟨hwidens, -⟩
    · exact ⟨_, hkey, rfl⟩
    · -- the printing is new, but another one of its card was there
      have hjudges := hcards.resolve_left (not_not_intro hwidens)
      obtain ⟨q, hq, hcard, hpass⟩ :=
        exists_passing_sibling hwidens hjudges ((hlaw' r hr).1 hk)
      exact ⟨q.key, (hlaw q hq).2 hpass, hcard⟩
  · intro r hr hkey hnot
    exact ((hgained r hr hkey).resolve_left hnot).2

/-- A search and a further call whose printings can be found by looking at the catalog. -/
theorem selected_of_loaded {t : Tables} {catalog : Catalog} (hcatalog : t.catalog = .ok catalog)
    (requests : List Request) (k : Call) (args : List Argument) (before after : List PrintingKey)
    (h : (t.catalog.toOption.map fun c => decide
      (((k.apply (Search.after c requests) args).toOption.map fun next =>
        ((t.select (Search.after c requests)).toOption, (t.select next).toOption)) =
          some (some before, some after))) = some true) :
    ∃ next, k.apply (Search.after catalog requests) args = .ok next ∧
      t.select (Search.after catalog requests) = .ok before ∧ t.select next = .ok after := by
  obtain ⟨next, hnext, hselected⟩ := Option.map_eq_some_iff.1 (of_loaded hcatalog h)
  obtain ⟨hbefore, hafter⟩ := Prod.mk.inj hselected
  exact ⟨next, toOption_eq_some.1 hnext, toOption_eq_some.1 hbefore, toOption_eq_some.1 hafter⟩

/-- The later of a card's two sets is an alternative. -/
def laterSet : List Request := [.call "by_set" [.ofText "Time Spiral", .ofText "one_of"]]

theorem laterSet_narrowed :
    ∃ catalog next before after,
      (Database.after [.insertSet wholeSet, .insertSet reprintSet]).tables.catalog =
        .ok catalog ∧
      (Call.value .set).apply (Search.after catalog laterSet) [.ofText "Mirage"] = .ok next ∧
      (Database.after [.insertSet wholeSet, .insertSet reprintSet]).tables.select
        (Search.after catalog laterSet) = .ok before ∧
      (Database.after [.insertSet wholeSet, .insertSet reprintSet]).tables.select next =
        .ok after ∧
      ¬after ⊆ before ∧ ∀ gained ∈ after, ∃ key ∈ before, key.card = gained.card := by
  obtain ⟨catalog, hcatalog, hnarrowing⟩ :=
    narrowing_calls [.insertSet wholeSet, .insertSet reprintSet]
  obtain ⟨next, happly, hbefore, hafter⟩ := selected_of_loaded hcatalog laterSet (.value .set)
    [.ofText "Mirage"] [⟨"Asmira", "Time Spiral", "121"⟩]
    [⟨"Asmira", "Mirage", "210"⟩, ⟨"Asmira", "Time Spiral", "121"⟩] (by decide +kernel)
  obtain ⟨hactive, hforbidden⟩ := of_loaded hcatalog (P := fun c =>
    (∀ d ∈ (Search.after c laterSet).filters.active, d.isCardLevel = false → d = .set) ∧
      valuesOf .disallow ((Search.after c laterSet).filters.entries .set) = [])
    (by decide +kernel)
  obtain ⟨e, hentry, -, hselected⟩ :=
    hnarrowing laterSet (.value .set) [.ofText "Mirage"] next (isNamed_value_iff.2 rfl) happly
  cases hentry
  obtain ⟨before, after, hbefore', hafter', -, hcards, -⟩ := hselected (by simp)
  obtain rfl := Except.ok.inj (hbefore.symm.trans hbefore')
  obtain rfl := Except.ok.inj (hafter.symm.trans hafter')
  have hjudges : (Database.after [.insertSet wholeSet, .insertSet reprintSet]).tables.JudgesCards
      (Search.after catalog laterSet).filters .set := by
    refine ⟨hactive, fun q _ w _ _ u hu => ?_⟩
    have hmem := mem_valuesOf.2 hu
    rw [hforbidden] at hmem
    exact absurd hmem List.not_mem_nil
  exact ⟨catalog, next, _, _, hcatalog, happly, hbefore, hafter, by decide, hcards (.inr hjudges)⟩

/-- The later of a card's two sets is required, and the rarity that it has in the earlier
one. -/
def laterSetRare : List Request :=
  [.call "by_set" [.ofText "Time Spiral"], .call "by_rarity" [.ofText "rare"]]

/-- The earlier of a card's two sets is required and forbidden. -/
def earlierSetAndNot : List Request :=
  [.call "by_set" [.ofText "Mirage"], .call "by_set" [.ofText "Mirage", .mode .disallow]]

/-- Two searches that select nothing, and each gains a card by one more required set. -/
theorem card_gained :
    ∃ catalog next next',
      (Database.after [.insertSet wholeSet, .insertSet reprintSet]).tables.catalog =
        .ok catalog ∧
      (Call.value .set).apply (Search.after catalog laterSetRare) [.ofText "Mirage"] =
        .ok next ∧
      (Database.after [.insertSet wholeSet, .insertSet reprintSet]).tables.select
        (Search.after catalog laterSetRare) = .ok [] ∧
      (Database.after [.insertSet wholeSet, .insertSet reprintSet]).tables.select next =
        .ok [⟨"Asmira", "Mirage", "210"⟩] ∧
      (Call.value .set).apply (Search.after catalog earlierSetAndNot) [.ofText "Time Spiral"] =
        .ok next' ∧
      (Database.after [.insertSet wholeSet, .insertSet reprintSet]).tables.select
        (Search.after catalog earlierSetAndNot) = .ok [] ∧
      (Database.after [.insertSet wholeSet, .insertSet reprintSet]).tables.select next' =
        .ok [⟨"Asmira", "Time Spiral", "121"⟩] := by
  obtain ⟨catalog, hcatalog, -⟩ := catalog_loads
    (Database.after [.insertSet wholeSet, .insertSet reprintSet]).tables
  obtain ⟨next, happly, hbefore, hafter⟩ := selected_of_loaded hcatalog laterSetRare
    (.value .set) [.ofText "Mirage"] [] [⟨"Asmira", "Mirage", "210"⟩] (by decide +kernel)
  obtain ⟨next', happly', hbefore', hafter'⟩ := selected_of_loaded hcatalog
    earlierSetAndNot (.value .set) [.ofText "Time Spiral"] []
    [⟨"Asmira", "Time Spiral", "121"⟩] (by decide +kernel)
  exact ⟨catalog, next, next', hcatalog, happly, hbefore, hafter, happly', hbefore', hafter'⟩

end CardArchive
