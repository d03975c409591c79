import CardArchive.Proofs.Filter.Laws

/-!
# Values that are required and forbidden

No card has a label and lacks it, and no text has a word and lacks it, so a search that asks
both of one value selects nothing, whatever else it asks. Values that are spread over the
printings of a card are no such contradiction: a required set is one that the card has been
printed in, and a forbidden one is not the set of the printing itself. A printing of the same
card elsewhere meets both, but only if another value of the category lets it in.

## What this module delivers

* `not_accepts`: values of one thing contradict each other.
* `of_acceptsPrinting`: what is left where values are spread over printings.
* `contradiction_selects`: the printings that a contradicting search selects.
* `mirage_contradicted`: a search that contradicts itself and selects a printing.
-/

set_option autoImplicit false

namespace CardArchive

section

variable {es : List Entry} {v : String} (hmust : .value v .mustInclude ∈ es)
  (hforbidden : .value v .disallow ∈ es)
include hmust hforbidden

/-- Nothing has a value that it must have and must not have. -/
theorem not_accepts (has : String → Prop) : ¬Accepts es has :=
  fun h => h.forbidden v hforbidden (h.required v hmust)

variable {t : Tables} {has : PrintingRow → String → Prop} {r : PrintingRow}

/-- A printing that passes nevertheless has another value that is asked for, and its card has
the value in question on another printing. -/
theorem of_acceptsPrinting (h : t.AcceptsPrinting has es r) :
    ¬has r v ∧ (∃ w, w ≠ v ∧ AskedFor es w ∧ has r w) ∧
      ∃ q ∈ t.printings, q ≠ r ∧ q.card = r.card ∧ has q v := by
  have hlacks := h.forbidden v hforbidden
  refine ⟨hlacks, ?_, ?_⟩
  · obtain ⟨w, hasked, hw⟩ := h.own ⟨v, .inl hmust⟩
    refine ⟨w, ?_, hasked, hw⟩
    rintro rfl
    exact hlacks hw
  · obtain ⟨q, hq, hcard, hhas⟩ := h.required v hmust
    refine ⟨q, hq, ?_, hcard, hhas⟩
    rintro rfl
    exact hlacks hhas

end

/-- **Contradictions select nothing, unless printings of a card can share them out.** After any
changes of the archive, over the catalog of what is stored, let any requests have built a
search in which a category holds one value both as required and as forbidden. The search
selects nothing if the value is a word or a label, or if no other value of the category is
asked for. Otherwise it is a set, a block, an artist or a rarity, and every selected printing
is without the value itself, has another one that is asked for, and is of a card that has the
value on another stored printing. -/
theorem contradiction_selects (changes : List Change) :
    let t := (Database.after changes).tables
    ∃ catalog, t.catalog = .ok catalog ∧ ∀ requests : List Request,
      let s := Search.after catalog requests
      ∃ keys, t.select s = .ok keys ∧ ∀ (c : Category) (v : String),
        .value v .mustInclude ∈ s.filters.entries c →
        .value v .disallow ∈ s.filters.entries c →
        (c.isSpread = false ∨ (∀ w, AskedFor (s.filters.entries c) w → w = v) → keys = []) ∧
        ∀ r ∈ t.printings, r.key ∈ keys →
          ¬t.Has c r v ∧ (∃ w, w ≠ v ∧ AskedFor (s.filters.entries c) w ∧ t.Has c r w) ∧
            ∃ q ∈ t.printings, q ≠ r ∧ q.card = r.card ∧ t.Has c q v := by
  intro t
  obtain ⟨catalog, hcatalog, hselects⟩ := catalog_selects changes
  refine ⟨catalog, hcatalog, fun requests => ?_⟩
  intro s
  obtain ⟨hsame, hfit⟩ := fit_after catalog requests
  obtain ⟨keys, hkeys, -, hstored, hlaw⟩ := hselects s hsame hfit
  refine ⟨keys, hkeys, fun c v hmust hforbidden => ?_⟩
  have hnumbers := comparesNumbers_of_fits (fits_of_mem_entries hfit hmust)
  -- a selected printing passes the law of the category, so the category is a spread one
  have hspread : ∀ r ∈ t.printings, r.key ∈ keys → c.isSpread = true ∧
      t.AcceptsPrinting (t.Has c) (s.filters.entries c) r := by
    intro r hr hkey
    have hpass := (hlaw r hr).1 hkey c
    cases hc : c.isSpread with
    | true => exact ⟨rfl, (passes_of_isSpread hc).1 hpass⟩
    | false =>
      exact absurd ((passes_of_values hnumbers hc).1 hpass) (not_accepts hmust hforbidden _)
  refine ⟨fun hnone => ?_, fun r hr hkey => ?_⟩
  · rw [List.eq_nil_iff_forall_not_mem]
    intro k hk
    obtain ⟨r, hr, rfl⟩ := hstored k hk
    obtain ⟨hc, haccepts⟩ := hspread r hr hk
    obtain ⟨-, ⟨w, hne, hasked, -⟩, -⟩ := of_acceptsPrinting hmust hforbidden haccepts
    rcases hnone with hother | hsingle
    · rw [hc] at hother
      cases hother
    · exact hne (hsingle w hasked)
  · exact of_acceptsPrinting hmust hforbidden (hspread r hr hkey).2

/-- Green is required and forbidden, beside a word that the card's name has. -/
def greenAndNot : List Request :=
  [.call "by_color" [.ofText "G"], .call "by_name" [.ofText "sm"],
    .call "by_color" [.ofText "G", .mode .disallow]]

theorem greenAndNot_selects :
    ∃ catalog, (Database.after [.insertSet wholeSet]).tables.catalog = .ok catalog ∧
      .value "G" .mustInclude ∈ (Search.after catalog greenAndNot).filters.entries .color ∧
      .value "G" .disallow ∈ (Search.after catalog greenAndNot).filters.entries .color ∧
      (Database.after [.insertSet wholeSet]).tables.select (Search.after catalog greenAndNot) =
        .ok [] := by
  obtain ⟨catalog, hcatalog, hselects⟩ := contradiction_selects [.insertSet wholeSet]
  have hentered := of_loaded hcatalog (P := fun c =>
    "G" ∈ valuesOf .mustInclude ((Search.after c greenAndNot).filters.entries .color) ∧
      "G" ∈ valuesOf .disallow ((Search.after c greenAndNot).filters.entries .color))
    (by decide +kernel)
  have hmust := mem_valuesOf.1 hentered.1
  have hforbidden := mem_valuesOf.1 hentered.2
  obtain ⟨keys, hkeys, hlaw⟩ := hselects greenAndNot
  obtain rfl := (hlaw .color "G" hmust hforbidden).1 (.inl rfl)
  exact ⟨catalog, hcatalog, hmust, hforbidden, hkeys⟩

/-- The set of a card's first printing is required and forbidden, and a later set is required
as well. -/
def mirageAndNot : List Request :=
  [.call "by_set" [.ofText "Mirage"], .call "by_set" [.ofText "Mirage", .mode .disallow],
    .call "by_set" [.ofText "Time Spiral"]]

/-- A search that requires and forbids one set selects a printing in another one. -/
theorem mirage_contradicted :
    ∃ catalog, (Database.after [.insertSet wholeSet, .insertSet reprintSet]).tables.catalog =
        .ok catalog ∧
      .value "Mirage" .mustInclude ∈ (Search.after catalog mirageAndNot).filters.entries .set ∧
      .value "Mirage" .disallow ∈ (Search.after catalog mirageAndNot).filters.entries .set ∧
      (Database.after [.insertSet wholeSet, .insertSet reprintSet]).tables.select
          (Search.after catalog mirageAndNot) = .ok [⟨"Asmira", "Time Spiral", "121"⟩] := by
  obtain ⟨catalog, hcatalog, -⟩ := catalog_loads
    (Database.after [.insertSet wholeSet, .insertSet reprintSet]).tables
  obtain ⟨hmust, hforbidden, hkeys⟩ := of_loaded hcatalog (P := fun c =>
    "Mirage" ∈ valuesOf .mustInclude ((Search.after c mirageAndNot).filters.entries .set) ∧
      "Mirage" ∈ valuesOf .disallow ((Search.after c mirageAndNot).filters.entries .set) ∧
      ((Database.after [.insertSet wholeSet, .insertSet reprintSet]).tables.select
        (Search.after c mirageAndNot)).toOption = some [⟨"Asmira", "Time Spiral", "121"⟩])
    (by decide +kernel)
  exact ⟨catalog, hcatalog, mem_valuesOf.1 hmust, mem_valuesOf.1 hforbidden,
    toOption_eq_some.1 hkeys⟩

end CardArchive
