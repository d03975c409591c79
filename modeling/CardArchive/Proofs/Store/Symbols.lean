import CardArchive.Proofs.Card.Costs
import CardArchive.Proofs.Store.Steps

/-!
# The symbols of stored costs

The amounts of a cost are counted under symbols: a pair of braces around what stood in
braces in the cost, or the one symbol of generic mana. Nothing else reaches the table of
amounts, and everything of this form does, as the cost that is the symbol alone has it.

## What this module delivers

* `CostSymbol`: the form of the symbols.
* `costSymbol_iff`: these are the symbols that some cost counts.
* `Tables.CountsSymbols` and `countsSymbols_after`: after any changes, every stored amount is
  of such a symbol.
-/

set_option autoImplicit false

namespace CardArchive

/-! ## Symbols of costs -/

/-- The symbols that amounts are counted under. -/
inductive CostSymbol : String → Prop
  | generic : CostSymbol genericMana
  | named {content : List Char} (hopen : '\x7d' ∉ content) (hname : isAmount content = false) :
      CostSymbol (symbolOf content)

/-- What stands in braces holds no closing one. -/
theorem closing_not_mem_groups {cs g : List Char} (h : g ∈ groups cs) : '\x7d' ∉ g := by
  obtain ⟨gs, hgs⟩ := exists_grouped cs
  rw [grouped_iff.1 hgs] at h
  induction hgs with
  | plain _ => cases h
  | opened _ _ => cases h
  | group _ hcontent _ ih =>
    rcases List.mem_cons.1 h with rfl | h
    · exact hcontent
    · exact ih h

theorem groups_symbolOf {content : List Char} (hopen : '\x7d' ∉ content) :
    groups (symbolOf content).toList = [content] := by
  rw [symbolOf, String.toList_ofList]
  exact groups_group List.not_mem_nil hopen []

theorem costSymbol_of_counted {g : List Char} (hopen : '\x7d' ∉ g) {q : String × Nat}
    (h : counted g = some q) : CostSymbol q.1 := by
  rw [counted] at h
  split at h
  · split at h
    · obtain rfl := Option.some.inj h
      exact .generic
    · cases h
  · rename_i hname
    obtain rfl := Option.some.inj h
    exact .named hopen (Bool.eq_false_iff.2 hname)

theorem costSymbol_of_parseManaCost {cost : String} {counts : Counts}
    (h : parseManaCost cost = .ok counts) : ∀ s ∈ counts.map Prod.fst, CostSymbol s := by
  obtain ⟨-, rfl⟩ := countGroups_eq_ok.1 h
  intro s hs
  rw [Counts.map_fst_added, List.map_nil, List.nil_append, List.mem_eraseDups,
    List.mem_filter] at hs
  obtain ⟨q, hq, rfl⟩ := List.mem_map.1 hs.1
  obtain ⟨g, hg, hcounted⟩ := List.mem_filterMap.1 hq
  exact costSymbol_of_counted (closing_not_mem_groups hg) hcounted

/-- The symbols of this form are those that some cost counts. -/
theorem costSymbol_iff {symbol : String} :
    CostSymbol symbol ↔
      ∃ cost counts, parseManaCost cost = .ok counts ∧ symbol ∈ counts.map Prod.fst := by
  constructor
  · intro h
    cases h with
    | generic => exact ⟨genericMana, [(genericMana, 1)], rfl, by simp⟩
    | @named content hopen hname =>
      refine ⟨symbolOf content, [(symbolOf content, 1)], ?_, by simp⟩
      rw [parseManaCost, groups_symbolOf hopen, countGroups, contribution, hname]
      rfl
  · rintro ⟨cost, counts, hcost, hmem⟩
    exact costSymbol_of_parseManaCost hcost symbol hmem

/-! ## Symbols of tables -/

namespace Tables

/-- Every stored amount is of a symbol that costs can have. -/
def CountsSymbols (t : Tables) : Prop := ∀ r ∈ t.mana, CostSymbol r.symbol

theorem CountsSymbols.of_mana {t t' : Tables} (h : t.CountsSymbols) (hmana : t'.mana = t.mana) :
    t'.CountsSymbols := by
  rw [CountsSymbols, hmana]
  exact h

section

variable {t t' : Tables} {card : Option String}

/-! ### What leaves the amounts alone -/

theorem addLabels_mana {s : Side} {labels : List Value} (h : t.addLabels s card labels = .ok t') :
    t'.mana = t.mana := by
  induction labels generalizing t with
  | nil =>
    cases h
    rfl
  | cons v rest ih =>
    unfold addLabels at h
    obtain ⟨label, -, h⟩ := bind_eq_ok.1 h
    obtain ⟨mid, hmid, h⟩ := bind_eq_ok.1 h
    obtain ⟨⟨rows, isNew⟩, -, hmid⟩ := bind_eq_ok.1 hmid
    cases hmid
    rw [ih h]
    cases s <;> rfl

theorem addLabelField_mana {s : Side} {c : Value} {field : String} {fallback : List Value}
    (h : t.addLabelField s card c field fallback = .ok t') : t'.mana = t.mana := by
  unfold addLabelField at h
  obtain ⟨labels, -, h⟩ := bind_eq_ok.1 h
  exact addLabels_mana (stored_eq_ok.1 h)

theorem addStatistics_mana {c : Value} (h : t.addStatistics card c = .ok t') :
    t'.mana = t.mana := by
  unfold addStatistics at h
  obtain ⟨power, -, h⟩ := bind_eq_ok.1 h
  obtain ⟨toughness, -, h⟩ := bind_eq_ok.1 h
  obtain ⟨loyalty, -, h⟩ := bind_eq_ok.1 h
  split at h
  · obtain ⟨_, -, h⟩ := bind_eq_ok.1 h
    obtain ⟨_, -, h⟩ := bind_eq_ok.1 h
    obtain ⟨_, -, h⟩ := bind_eq_ok.1 h
    obtain ⟨_, -, h⟩ := bind_eq_ok.1 h
    obtain ⟨⟨rows, isNew⟩, -, h⟩ := bind_eq_ok.1 (stored_eq_ok.1 h)
    cases h
    rfl
  · split at h
    · obtain ⟨_, -, h⟩ := bind_eq_ok.1 h
      obtain ⟨_, -, h⟩ := bind_eq_ok.1 h
      obtain ⟨⟨rows, isNew⟩, -, h⟩ := bind_eq_ok.1 (stored_eq_ok.1 h)
      cases h
      rfl
    · cases h
      rfl

theorem addPrintingRow_mana {expansion name c : Value} {isNew : Bool}
    (h : t.addPrintingRow expansion name c = .ok (t', isNew)) : t'.mana = t.mana := by
  obtain ⟨_, _, _, _, _, _, _, _, _, -, -, -, -, -, -, h⟩ := addPrintingRow_inserts h
  obtain ⟨⟨rows, new⟩, -, h⟩ := bind_eq_ok.1 h
  cases h
  rfl

theorem mana_of_ofCards (h : t'.ofCards = t.ofCards) : t'.mana = t.mana := by
  have hmana := congrArg Tables.mana h
  exact hmana

/-! ### One card, one set, any changes -/

namespace CountsSymbols

theorem amounts {counts : Counts} (hcounts : ∀ s ∈ counts.map Prod.fst, CostSymbol s)
    (h : t.CountsSymbols) (hadded : t.addAmounts card counts = .ok t') : t'.CountsSymbols := by
  induction counts generalizing t with
  | nil =>
    cases hadded
    exact h
  | cons amount rest ih =>
    obtain ⟨symbol, n⟩ := amount
    obtain ⟨hsymbol, hrest⟩ := List.forall_mem_cons.1 hcounts
    unfold addAmounts at hadded
    obtain ⟨quantity, -, hadded⟩ := bind_eq_ok.1 hadded
    obtain ⟨mid, hmid, hadded⟩ := bind_eq_ok.1 hadded
    refine ih hrest ?_ hadded
    obtain ⟨⟨rows, isNew⟩, hrows, hmid⟩ := bind_eq_ok.1 hmid
    cases hmid
    rcases insertOrSkip_eq_ok hrows with ⟨-, rfl⟩ | ⟨-, r, hr, -, -, rfl⟩
    · exact h
    · -- the one row that is new has the symbol of the amount
      cases card with
      | none => cases hr
      | some name =>
        cases hr
        exact List.forall_mem_append.2 ⟨h, List.forall_mem_singleton.2 hsymbol⟩

theorem details {c : Value} (h : t.CountsSymbols) (hadded : t.addDetails card c = .ok t') :
    t'.CountsSymbols := by
  unfold addDetails at hadded
  obtain ⟨t₁, h₁, hadded⟩ := bind_eq_ok.1 hadded
  obtain ⟨t₂, h₂, hadded⟩ := bind_eq_ok.1 hadded
  obtain ⟨t₃, h₃, hadded⟩ := bind_eq_ok.1 hadded
  obtain ⟨t₄, h₄, hadded⟩ := bind_eq_ok.1 hadded
  obtain ⟨t₅, h₅, hadded⟩ := bind_eq_ok.1 hadded
  obtain ⟨cost, -, hadded⟩ := bind_eq_ok.1 hadded
  obtain ⟨counts, hcounts, hadded⟩ := bind_eq_ok.1 hadded
  obtain ⟨t₆, h₆, hadded⟩ := bind_eq_ok.1 hadded
  have hlabels : t₅.mana = t.mana :=
    calc t₅.mana
      _ = t₄.mana := addLabelField_mana h₅
      _ = t₃.mana := addLabelField_mana h₄
      _ = t₂.mana := addLabelField_mana h₃
      _ = t₁.mana := addLabelField_mana h₂
      _ = t.mana := addLabelField_mana h₁
  have hsymbols : ∀ s ∈ counts.map Prod.fst, CostSymbol s := by
    cases cost with
    | text s => exact costSymbol_of_parseManaCost (shaped_eq_ok.1 hcounts)
    | _ => cases hcounts
  exact ((h.of_mana hlabels).amounts hsymbols (stored_eq_ok.1 h₆)).of_mana
    (addStatistics_mana hadded)

theorem cardRow {name c : Value} (h : t.CountsSymbols) (hadded : t.addCardRow name c = .ok t') :
    t'.CountsSymbols := by
  obtain ⟨_, _, _, _, _, _, mid, _, -, -, -, -, -, hrow, hdetails⟩ := addCardRow_inserts hadded
  obtain ⟨⟨rows, new⟩, -, hrow⟩ := bind_eq_ok.1 hrow
  cases hrow
  have hsame := h.of_mana (rfl : ({ t with cards := rows } : Tables).mana = t.mana)
  rcases hdetails with ⟨-, hdetails⟩ | ⟨-, rfl⟩
  · exact hsame.details hdetails
  · exact hsame

theorem cards {expansion : Value} {cs : List Value} {i : Intake} (h : t.CountsSymbols)
    (hadded : t.addCards expansion cs = .ok i) : i.tables.CountsSymbols := by
  induction cs generalizing t i with
  | nil =>
    cases hadded
    exact h
  | cons c rest ih =>
    obtain ⟨mid, isNew, faces, later, hfirst, -, hlater, htables, -⟩ := addCards_steps hadded
    obtain ⟨name, row, -, hrow, hprinting⟩ := addCardData_steps hfirst
    rw [htables]
    exact ih ((h.cardRow hrow).of_mana (addPrintingRow_mana hprinting)) hlater

theorem set {name set : Value} {n : Nat} (h : t.CountsSymbols)
    (hadded : t.addSet name set = .ok (t', n)) : t'.CountsSymbols := by
  obtain ⟨mid, intake, hrow, hintake, hlast⟩ := addSet_steps hadded
  have hcards := (h.of_mana (mana_of_ofCards (addSetRow_ofCards hrow))).cards hintake
  exact hcards.of_mana (mana_of_ofCards (addAllFaces_ofCards hlast))

end CountsSymbols

end

end Tables

/-- After any changes, every stored amount is of a symbol that costs can have. -/
theorem countsSymbols_after (changes : List Change) :
    (Database.after changes).tables.CountsSymbols := by
  apply Database.after_preserves_sets
  · exact List.forall_mem_nil _
  · exact fun t t' name set n hadded h => h.set hadded
  · intro t t' hsame h
    have hmana : t'.mana = t.mana := by
      have hmana := congrArg Tables.mana hsame
      exact hmana
    exact h.of_mana hmana

end CardArchive
