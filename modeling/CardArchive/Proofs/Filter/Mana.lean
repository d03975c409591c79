import CardArchive.Proofs.Search.Selected
import CardArchive.Proofs.Statement.Joins
import CardArchive.Proofs.Store.Numbers

/-!
# Cards by their amounts of mana

A comparison of an amount of mana joins the rows of its symbol to the cards, by an outer join
that keeps the cards without such a row; what is missing counts as zero. A card has at most
one row of a symbol, so each join leaves one scope for each card, whatever symbols were joined
before, also the same one. The selection therefore goes through the cards as they are stored,
those without any cost and even those without a name, and keeps the ones whose amounts pass
all comparisons.

## What this module delivers

* `manaMatch` and `manaJoin`: the join of a symbol's rows, and when it matches.
* `manaJoin_isLocal`, `manaJoin_completes`: what carries a chain of such joins.
* `amount_of_puts`: what a join puts under its alias counts as the amount.
* `rows_manaSelect`: the selected rows, one for each card that passes.
* `admits_mana`: what the fragment of comparisons of amounts admits.
-/

set_option autoImplicit false

namespace CardArchive

open CardArchive.Numbering

/-! ## One join -/

/-- Whether a row of mana under one alias is of a symbol and of the card under another. -/
def manaMatch (card source symbol : String) : Expr :=
  .allOf [
    .compare (.column ⟨card, "name"⟩) Operator.equal.text (.column ⟨source, "card_name"⟩),
    .compare (.column ⟨source, "mana_type"⟩) Operator.equal.text (.literal (.text symbol))]

/-- The join of the rows of a symbol under one alias to the cards under another. -/
def manaJoin (card source symbol : String) : Join :=
  .mk "Mana" source (manaMatch card source symbol) true

section

variable {t : Tables} {db : Relations} {card source symbol : String}

theorem holds_manaMatch {s : Scope} :
    (manaMatch card source symbol).Holds db s ↔
      ((s card).cell "name" ≠ .null ∧ (s card).cell "name" = (s source).cell "card_name") ∧
        (s source).cell "mana_type" = .text symbol := by
  have hsymbol : (Expr.compare (.column ⟨source, "mana_type"⟩) Operator.equal.text
      (.literal (.text symbol))).Holds db s ↔ (s source).cell "mana_type" = .text symbol := by
    rw [holds_compare, Expr.value, Expr.value, Literal.cell, compared_equal]
    exact and_iff_right_of_imp fun h => by rw [h]; exact Cell.noConfusion
  rw [manaMatch, holds_allOf, List.forall_mem_cons, List.forall_mem_singleton, holds_equal, hsymbol]
  rfl

variable (hne : card ≠ source)
include hne

/-- Beside any record, the rows of the card it names and of the symbol match. -/
theorem holds_manaMatch_pair {b : Record} {r : ManaRow} :
    (manaMatch card source symbol).Holds db (.pair card source b r.record) ↔
      b.cell "name" = .text r.card ∧ r.symbol = symbol := by
  have hname : r.record.cell "card_name" = .text r.card := rfl
  have hsymbol : r.record.cell "mana_type" = .text r.symbol := rfl
  rw [holds_manaMatch, Scope.pair_base hne, Scope.pair_source, hname, hsymbol, Cell.text.injEq]
  refine and_congr_left fun _ => and_iff_right_of_imp fun h => ?_
  rw [h]
  exact Cell.noConfusion

theorem manaJoin_isLocal : (manaJoin card source symbol).IsLocal db card := by
  refine ⟨hne, fun s s' hcard hsource => ?_⟩
  rw [holds_manaMatch, holds_manaMatch, hcard, hsource]

/-- A card has at most one row of a symbol. -/
theorem manaJoin_completes (ht : t.ManaDistinct) :
    (manaJoin card source symbol).Completes t.relations card := by
  refine ⟨rfl, fun b => ?_⟩
  have hmana : t.relations "Mana" = t.mana.map ManaRow.record := rfl
  have hdistinct := List.pairwise_map.1 ht
  rw [hmana, List.pairwise_map]
  refine hdistinct.imp fun {r r'} hkeys ⟨h, h'⟩ => hkeys ?_
  obtain ⟨hcard, hsymbol⟩ := (holds_manaMatch_pair hne).1 h
  obtain ⟨hcard', hsymbol'⟩ := (holds_manaMatch_pair hne).1 h'
  exact Prod.ext (Cell.text.inj (hcard.symm.trans hcard')) (hsymbol.trans hsymbol'.symm)

/-- What the join puts beside a card has the amount as its quantity, or none if that is zero. -/
theorem amount_of_puts (ht : t.ManaDistinct) {c : CardRow} {r : Record}
    (h : (manaJoin card source symbol).Puts t.relations card c.record r) :
    (if r.cell "quantity" = .null then .integer 0 else r.cell "quantity") =
      Cell.integer (t.amount c.name symbol) := by
  have hname : c.record.cell "name" = .ofText? c.name := rfl
  rcases h with ⟨hr, hmatch⟩ | ⟨-, hnone, rfl⟩
  · obtain ⟨row, hrow, rfl⟩ := List.mem_map.1 hr
    rw [holds_manaMatch_pair hne, hname, ofText?_eq_text] at hmatch
    obtain ⟨hcard, rfl⟩ := hmatch
    rw [hcard, amount_of_mem ht hrow]
    rfl
  · -- no row matches, and nothing stands under the alias
    have hzero : t.amount c.name symbol = 0 := by
      refine amount_of_forall_ne fun row hrow ⟨hcard, hsymbol⟩ => ?_
      refine hnone row.record (List.mem_map_of_mem hrow) ?_
      rw [holds_manaMatch_pair hne, hname, ofText?_eq_text]
      exact ⟨hcard, hsymbol⟩
    rw [hzero]
    rfl

end

/-! ## The chain of joins -/

/-- The joins of comparisons of amounts, for the cards under an alias. -/
def manaJoins (xs : List ManaTest) (n : Nat) : List Join :=
  (layout (xs.map (ManaTest.part (aliasName n))) (n + 1)).map Prod.fst

/-- The conditions of comparisons of amounts. -/
def manaConditions (xs : List ManaTest) (n : Nat) : List Expr :=
  (layout (xs.map (ManaTest.part (aliasName n))) (n + 1)).map Prod.snd

/-- The selection of cards that comparisons of amounts build from one number on. -/
def manaSelect (xs : List ManaTest) (n : Nat) : Select :=
  selectColumn ⟨aliasName n, "name"⟩ "Card" (manaJoins xs n) (manaConditions xs n)

section

variable {xs : List ManaTest} {n : Nat}

/-- Every join has an alias behind that of the cards. -/
theorem mem_manaJoins {j : Join} (hj : j ∈ manaJoins xs n) :
    ∃ x ∈ xs, ∃ m, aliasName n ≠ aliasName m ∧
      j = manaJoin (aliasName n) (aliasName m) x.symbol := by
  obtain ⟨p, hp, rfl⟩ := List.mem_map.1 hj
  obtain ⟨_, hpart, m, hm, rfl⟩ := mem_layout hp
  obtain ⟨x, hx, rfl⟩ := List.mem_map.1 hpart
  exact ⟨x, hx, m, aliasName_ne hm, rfl⟩

theorem manaJoins_sources (xs : List ManaTest) (n : Nat) :
    (manaJoins xs n).map Join.source = (List.range' (n + 1) xs.length).map aliasName := by
  have hsource : Join.source = Prod.fst ∘ Join.named := by
    funext j
    cases j
    rfl
  rw [hsource, ← List.map_map, manaJoins, manaNamed, List.map_map]
  rfl

variable {t : Tables} (ht : t.ManaDistinct)
include ht

/-- The joins turn the scope of each card into one scope, which has the card as before and
under each alias what the join can put there. -/
theorem exists_scope_of_card (xs : List ManaTest) (n : Nat) (scope : Scope) :
    ∃ f : CardRow → Scope,
      extendAll t.relations ((t.relations "Card").map fun r => scope.bind (aliasName n) r)
        (manaJoins xs n) = t.cards.map f ∧
      ∀ c, f c (aliasName n) = c.record ∧ ∀ j ∈ manaJoins xs n,
        j.Puts t.relations (aliasName n) c.record (f c j.source) := by
  have hlocal : ∀ j ∈ manaJoins xs n, j.IsLocal t.relations (aliasName n) := by
    intro j hj
    obtain ⟨x, -, m, hne, rfl⟩ := mem_manaJoins hj
    exact manaJoin_isLocal hne
  have hcompletes : ∀ j ∈ manaJoins xs n, j.Completes t.relations (aliasName n) := by
    intro j hj
    obtain ⟨x, -, m, hne, rfl⟩ := mem_manaJoins hj
    exact manaJoin_completes hne ht
  have hdistinct : ((manaJoins xs n).map Join.source).Nodup := by
    rw [manaJoins_sources]
    exact nodup_aliases _ _
  have hcards : aliasName n ∉ (manaJoins xs n).map Join.source := by
    rw [manaJoins_sources]
    simp
  have hrecords : t.relations "Card" = t.cards.map CardRow.record := rfl
  obtain ⟨f, hf, hscope⟩ := extendAll_eq_map hlocal hcompletes hdistinct
  refine ⟨fun c => f (scope.bind (aliasName n) c.record), ?_, fun c => ?_⟩
  · rw [hf, hrecords, List.map_map, List.map_map]
    rfl
  · obtain ⟨hputs, hsame⟩ := hscope (scope.bind (aliasName n) c.record)
    rw [Scope.bind_self] at hputs
    exact ⟨(hsame _ hcards).trans (Scope.bind_self _ _ _), hputs⟩

/-- In such a scope, the conditions ask that the card passes all comparisons. -/
theorem holds_manaConditions {c : CardRow} {s : Scope}
    (hputs : ∀ j ∈ manaJoins xs n, j.Puts t.relations (aliasName n) c.record (s j.source)) :
    (∀ e ∈ manaConditions xs n, e.Holds t.relations s) ↔
      ∀ x ∈ xs, t.Meets c.name x.entry := by
  rw [manaConditions, List.forall_mem_map]
  refine forall_layout (P := fun p : Join × Expr => p.2.Holds t.relations s)
    fun x _ m hm hmem => ?_
  have hamount := amount_of_puts (aliasName_ne hm) ht (hputs _ (List.mem_map_of_mem hmem))
  refine holds_compare.trans ?_
  have hvalue : (Expr.coalesce (.column ⟨aliasName m, "quantity"⟩)
      (.literal (.integer 0))).value t.relations [] s =
        Cell.integer (t.amount c.name x.symbol) := by
    rw [← hamount, Expr.value, Expr.value, Expr.value]
    rfl
  rw [hvalue, Expr.value, Literal.cell, compared_relates]
  simp [Tables.Meets, ManaTest.entry, Tables.number?]

/-- The selection lists one row for each stored card that passes all comparisons, in the order
in which the cards are stored. -/
theorem rows_manaSelect {keep : CardRow → Bool}
    (hkeep : ∀ c, keep c = true ↔ ∀ x ∈ xs, t.Meets c.name x.entry) (scope : Scope) :
    (manaSelect xs n).rows t.relations scope =
      (t.cards.filter keep).map fun c => [Cell.ofText? c.name] := by
  obtain ⟨f, hf, hscope⟩ := exists_scope_of_card ht xs n scope
  have hkept : keptScopes t.relations scope "Card" (aliasName n) (manaJoins xs n)
      (manaConditions xs n) = (t.cards.filter keep).map f := by
    rw [keptScopes, hf, List.filter_map]
    congr 1
    apply List.filter_congr
    intro c _
    rw [Bool.eq_iff_iff, hkeep, ← holds_manaConditions ht (hscope c).2, Function.comp_apply,
      beq_iff_eq, all_truths_eq_true]
  rw [manaSelect, selectColumn, rows_ungrouped, hkept, List.map_map]
  apply List.map_congr_left
  intro c _
  have hname : (f c).cell ⟨aliasName n, "name"⟩ = .ofText? c.name := by
    rw [Scope.cell, (hscope c).1]
    rfl
  exact congrArg (fun cell => [cell]) hname

end

/-! ## The category -/

section

variable {t : Tables} (ht : t.ManaDistinct) {catalog : Catalog} {es : List Entry}
  (hfit : ∀ e ∈ es, e.Fits catalog .manaType)
include ht hfit

theorem rows_manaTests (n : Nat) (scope : Scope) :
    (manaSelect (manaTests es) n).rows t.relations scope =
      (t.cards.filter fun c => ∀ e ∈ es, t.Meets c.name e).map fun c => [Cell.ofText? c.name] := by
  apply rows_manaSelect ht
  intro c
  have hes := map_manaTests hfit
  rw [decide_eq_true_eq, ← List.forall_mem_map (f := ManaTest.entry) (P := t.Meets c.name), hes]

/-- The fragment of the amounts of mana admits the printings of stored cards that pass every
comparison. -/
theorem admits_mana (ctx : Context) {r : PrintingRow} (hr : t.hasCard r.card = true) (n : Nat) :
    ((fragmentOf ctx .manaType es).build n).Admits t.relations r.record ↔
      ∀ e ∈ es, t.Meets (some r.card) e := by
  have hbuild : (fragmentOf ctx .manaType es).build n =
      .cards (manaSelect (manaTests es) n) := rfl
  rw [hbuild, admits_cards, rows_manaTests ht hfit, firstCells, List.map_map, List.mem_map]
  constructor
  · rintro ⟨c, hc, hname⟩
    rw [← ofText?_eq_text.1 hname]
    simpa using (List.mem_filter.1 hc).2
  · intro hmeets
    obtain ⟨c, hc, hname⟩ := List.any_eq_true.1 hr
    have hname := eq_of_beq hname
    refine ⟨c, List.mem_filter.2 ⟨hc, ?_⟩, ofText?_eq_text.2 hname⟩
    rw [hname]
    exact decide_eq_true hmeets

end

end CardArchive
