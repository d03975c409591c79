import CardArchive.Proofs.Filter.Blocks
import CardArchive.Proofs.Filter.Mana
import CardArchive.Proofs.Filter.Statistics
import CardArchive.Proofs.Filter.Words

/-!
# The law of every category

There are three ways to judge a printing by the filters of a category. Comparisons are judged
by the numbers of its card. Values of most categories are judged one by one: the printing has
them or not. Sets, blocks, artists and rarities are spread over the printings of a card, so
there the required values are looked for on all of its printings, while the forbidden ones
are those of the printing itself. With the catalog of the stored tables, a search selects the
printings that pass the law of each category.

## What this module delivers

* `Tables.Has`: whether a printing has a value of a category.
* `Category.isSpread`: the categories whose values are spread over printings.
* `AskedFor`: the values that are required or alternatives.
* `Tables.Passes`: the law of a category.
* `passes_of_card`: a category that constrains the card judges all of its printings alike.
* `admits_passes`: a category admits what passes its law.
* `selects_passing`, `catalog_selects`: a search selects what passes all laws.
* `of_loaded`: facts about the catalog of given tables.
-/

set_option autoImplicit false

namespace CardArchive

/-! ## Values of printings -/

/-- Whether a printing has a value of a category, of its own or by its card. A category of
comparisons has no values. -/
def Tables.Has (t : Tables) (c : Category) (r : PrintingRow) (v : String) : Prop :=
  match c with
  | .name | .text | .flavorText => ∃ x ∈ t.searched? r c, Occurs v x
  | .color => (⟨r.card, v⟩ : LabelRow) ∈ t.side .color
  | .colorIdentity => (⟨r.card, v⟩ : LabelRow) ∈ t.side .colorIdentity
  | .supertype => (⟨r.card, v⟩ : LabelRow) ∈ t.side .supertype
  | .type => (⟨r.card, v⟩ : LabelRow) ∈ t.side .type
  | .subtype => (⟨r.card, v⟩ : LabelRow) ∈ t.side .subtype
  | .set => r.expansion = v
  | .block => t.inBlock r v
  | .artist => r.artist = v
  | .rarity => r.rarity = v
  | .stat | .statVersusStat | .manaType => False

/-- Whether the values of a category are spread over the printings of a card, so that one
printing need not have all that the card has. -/
def Category.isSpread : Category → Bool
  | set | block | artist | rarity => true
  | _ => false

/-- Whether a value is asked for: required, or one of the alternatives. -/
def AskedFor (es : List Entry) (v : String) : Prop :=
  .value v .mustInclude ∈ es ∨ .value v .oneOf ∈ es

/-- Printings of one card have the same values in every category that constrains the card. -/
theorem has_of_card {t : Tables} {c : Category} (hc : c.isCardLevel = true) {r q : PrintingRow}
    (h : r.card = q.card) (v : String) : t.Has c r v ↔ t.Has c q v := by
  cases c with
  | set | block | artist | rarity | flavorText => cases hc
  | _ => simp only [Tables.Has, Tables.searched?, h]

/-! ## Laws -/

/-- The law of a category: what its filters ask of a printing. -/
def Tables.Passes (t : Tables) (c : Category) (es : List Entry) (r : PrintingRow) : Prop :=
  if c.comparesNumbers then ∀ e ∈ es, t.Meets (some r.card) e
  else if c.isSpread then t.AcceptsPrinting (t.Has c) es r
  else Accepts es (t.Has c r)

section

variable {t : Tables} {c : Category} {es : List Entry} {r : PrintingRow}

theorem passes_of_comparesNumbers (h : c.comparesNumbers = true) :
    t.Passes c es r ↔ ∀ e ∈ es, t.Meets (some r.card) e := by
  rw [Tables.Passes, if_pos h]

theorem passes_of_isSpread (h : c.isSpread = true) :
    t.Passes c es r ↔ t.AcceptsPrinting (t.Has c) es r := by
  have hnumbers : ¬c.comparesNumbers = true := by
    cases c with
    | stat | statVersusStat | manaType => cases h
    | _ => exact Bool.false_ne_true
  rw [Tables.Passes, if_neg hnumbers, if_pos h]

theorem passes_of_values (hc : c.comparesNumbers = false) (h : c.isSpread = false) :
    t.Passes c es r ↔ Accepts es (t.Has c r) := by
  rw [Tables.Passes, if_neg (by simp [hc]), if_neg (by simp [h])]

/-- Without filters, a category asks nothing. -/
theorem passes_nil : t.Passes c [] r := by
  unfold Tables.Passes
  split
  · exact List.forall_mem_nil _
  · split
    · exact ⟨fun _ hv => (nomatch hv), fun ⟨_, hv⟩ => (nomatch hv), fun _ hv => (nomatch hv),
        fun ⟨_, hv⟩ => (nomatch hv)⟩
    · exact accepts_nil _

/-- Printings of one card pass the same filters of a category that constrains the card. -/
theorem passes_of_card (hc : c.isCardLevel = true) {q : PrintingRow} (h : r.card = q.card) :
    t.Passes c es r ↔ t.Passes c es q := by
  have hhas : t.Has c r = t.Has c q := funext fun v => propext (has_of_card hc h v)
  cases c with
  | set | block | artist | rarity | flavorText => cases hc
  | stat | statVersusStat | manaType =>
    rw [passes_of_comparesNumbers rfl, passes_of_comparesNumbers rfl, h]
  | _ => rw [passes_of_values rfl rfl, passes_of_values rfl rfl, hhas]

/-- A text that is searched accepts values by the words in it, and there is only one such
text. -/
theorem exists_accepts_iff {o : Option String} (h : o.isSome = true) :
    (∃ x ∈ o, Accepts es fun w => Occurs w x) ↔ Accepts es fun w => ∃ x ∈ o, Occurs w x := by
  obtain ⟨x, rfl⟩ := Option.isSome_iff_exists.1 h
  simp only [Option.mem_def, Option.some.injEq, exists_eq_left']

/-- The fragment of a category of labels admits the printings whose card's labels the values
accept. -/
theorem admits_labels (hnamed : t.LabelsNamed) {side : Side} (hc : c.side? = some side)
    (hr : t.hasCard r.card = true) (ctx : Context) (n : Nat) :
    ((fragmentOf ctx c es).build n).Admits t.relations r.record ↔
      Accepts es fun v => (⟨r.card, v⟩ : LabelRow) ∈ t.side side := by
  have hbuild : (fragmentOf ctx c es).build n = .cards (sideSelect c (split es) n) := by
    cases c <;> cases hc <;> rfl
  rw [hbuild, admits_cards, text_mem_sideCells hc hnamed]
  exact and_iff_right hr

end

/-! ## Selected printings -/

section

variable (changes : List Change) {catalog : Catalog}

/-- After any changes, and with the blocks that are stored, a category that has filters
admits exactly the stored printings that pass its law. -/
theorem admits_passes {c : Category} {es : List Entry} (hne : es ≠ [])
    (hfit : ∀ e ∈ es, e.Fits catalog c) {r : PrintingRow}
    (hr : r ∈ (Database.after changes).tables.printings) (n : Nat) :
    ((fragmentOf ⟨aliasName 0, (Database.after changes).tables.blockSets⟩ c es).build n).Admits
        (Database.after changes).tables.relations r.record ↔
      (Database.after changes).tables.Passes c es r := by
  have ht := keyed_after changes
  have hcard := (ht.printings r hr).1
  have hlabels := labelsNamed_after changes
  cases c with
  | name | text | flavorText =>
    refine (admits_words ht hr rfl es _ n).trans ?_
    rw [passes_of_values rfl rfl]
    exact exists_accepts_iff (isSome_searched? ht hr rfl)
  | color | colorIdentity | supertype | type | subtype =>
    refine (admits_labels hlabels rfl hcard _ n).trans ?_
    rw [passes_of_values rfl rfl]
    rfl
  | stat =>
    rw [passes_of_comparesNumbers rfl]
    exact admits_stats ht (.inl rfl) hne hfit _ r n
  | statVersusStat =>
    rw [passes_of_comparesNumbers rfl]
    exact admits_stats ht (.inr rfl) hne hfit _ r n
  | manaType =>
    rw [passes_of_comparesNumbers rfl]
    exact admits_mana (manaDistinct_after changes) hfit _ hcard n
  | set | artist | rarity =>
    rw [passes_of_isSpread rfl]
    exact admits_printing rfl hr es _ n
  | block =>
    rw [passes_of_isSpread rfl]
    exact admits_storedBlocks hr es n

/-- With the stored blocks, filters that their categories can hold select the printings that
pass the law of every category. -/
theorem selects_passing {s : Search} (hfit : s.filters.Fit catalog)
    (hblocks : s.catalog.blocks = (Database.after changes).tables.blockSets) :
    (Database.after changes).tables.Selects s fun r =>
      ∀ c, (Database.after changes).tables.Passes c (s.filters.entries c) r := by
  refine selects_of_fit hfit (printings_nodup_after changes) fun r hr => ?_
  have hadmits : ∀ c ∈ s.filters.active,
      (((fragmentOf ⟨aliasName 0, s.catalog.blocks⟩ c (s.filters.entries c)).build 1).Admits
        (Database.after changes).tables.relations r.record ↔
          (Database.after changes).tables.Passes c (s.filters.entries c) r) := by
    intro c hc
    rw [hblocks]
    exact admits_passes changes (mem_active.1 hc) (fun e he => fits_of_mem_entries hfit he) hr 1
  refine (forall₂_congr hadmits).trans ⟨fun hactive c => ?_, fun hall c _ => hall c⟩
  by_cases hc : c ∈ s.filters.active
  · exact hactive c hc
  · rw [entries_of_not_active hc]
    exact passes_nil

/-- The catalog of what is stored, with the law of every search over it. -/
theorem catalog_selects :
    ∃ catalog, (Database.after changes).tables.catalog = .ok catalog ∧
      ∀ s : Search, s.catalog = catalog → s.filters.Fit catalog →
        (Database.after changes).tables.Selects s fun r =>
          ∀ c, (Database.after changes).tables.Passes c (s.filters.entries c) r := by
  obtain ⟨catalog, hcatalog, hblocks, -⟩ := catalog_loads (Database.after changes).tables
  refine ⟨catalog, hcatalog, fun s hs hfit => selects_passing changes hfit ?_⟩
  rw [hs]
  exact hblocks

end

/-- What is found by looking at the catalog of what is stored is true of the catalog. -/
theorem of_loaded {t : Tables} {catalog : Catalog} (hcatalog : t.catalog = .ok catalog)
    {P : Catalog → Prop} [DecidablePred P]
    (h : (t.catalog.toOption.map fun c => decide (P c)) = some true) : P catalog := by
  rw [hcatalog] at h
  exact of_decide_eq_true (Option.some.inj h)

end CardArchive
