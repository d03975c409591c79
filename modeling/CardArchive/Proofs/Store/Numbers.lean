import CardArchive.Proofs.Search.Requests
import CardArchive.Proofs.Statement.Selection
import CardArchive.Proofs.Store.Coherence
import CardArchive.Proofs.Store.Reachable

/-!
# Numbers of cards

A card has a converted cost, and some cards have power and toughness or a loyalty. These
numbers lie in three tables, each with at most one row of a card, so they are a function of
the card's name that is not everywhere defined. The amount of a mana symbol in a card's
cost is defined everywhere: it is zero where there is no row.

## What this module delivers

* `Operator.Relates` and `compared_relates`: the relation that an operator names.
* `Tables.stat?`, `Tables.amount` and `Tables.number?`: the numbers of a card.
* `Tables.Meets`: whether a card passes a comparison.
* `keyed_after`, `manaDistinct_after`: each number is stored at most once.
* `stat?_eq_some`: the statistics of a card as records.
-/

set_option autoImplicit false

namespace CardArchive

/-! ## Relations of integers -/

/-- Whether two integers stand in the relation that an operator names. -/
def Operator.Relates : Operator → Int → Int → Prop
  | .unequal, m, n => m ≠ n
  | .equal, m, n => m = n
  | .less, m, n => m < n
  | .lessEqual, m, n => m ≤ n
  | .greater, m, n => n < m
  | .greaterEqual, m, n => n ≤ m

instance (o : Operator) (m n : Int) : Decidable (o.Relates m n) :=
  match o with
  | .unequal => inferInstanceAs (Decidable (m ≠ n))
  | .equal => inferInstanceAs (Decidable (m = n))
  | .less => inferInstanceAs (Decidable (m < n))
  | .lessEqual => inferInstanceAs (Decidable (m ≤ n))
  | .greater => inferInstanceAs (Decidable (n < m))
  | .greaterEqual => inferInstanceAs (Decidable (n ≤ m))

/-- Cells of integers are compared as the integers are. -/
theorem compared_relates {o : Operator} {m n : Int} :
    compared o.text (.integer m) (.integer n) = some true ↔ o.Relates m n := by
  rw [compared_text]
  simp only [Cell.order?, Option.map_some, Option.some.injEq]
  rcases lt_trichotomy m n with h | h | h
  · rw [compare_lt_iff_lt.2 h]
    cases o <;> simp [Operator.holds, Operator.Relates] <;> omega
  · rw [compare_eq_iff_eq.2 h]
    cases o <;> simp [Operator.holds, Operator.Relates] <;> omega
  · rw [compare_gt_iff_gt.2 h]
    cases o <;> simp [Operator.holds, Operator.Relates] <;> omega

/-! ## Numbers of a card -/

namespace Tables

/-- A statistic of the card with a name, if the card has it. -/
def stat? (t : Tables) (card : Option String) : Stat → Option Int
  | .cmc => (t.cards.find? fun r => r.name == card).map CardRow.cmc
  | .power => (t.powers.find? fun r => r.card == card).map PowerRow.powerValue
  | .toughness => (t.powers.find? fun r => r.card == card).map PowerRow.toughnessValue
  | .loyalty => (t.loyalties.find? fun r => r.card == card).map LoyaltyRow.value

/-- The amount of a mana symbol in the cost of a card, zero if there is no row of it. -/
def amount (t : Tables) (card : Option String) (symbol : String) : Int :=
  match t.mana.find? fun r => some r.card == card && r.symbol == symbol with
  | some r => r.quantity
  | none => 0

/-- The number that a side of a comparison stands for: a statistic of the card, an integer, or
the amount of a mana symbol. -/
def number? (t : Tables) (card : Option String) : Term → Option Int
  | .stat s => t.stat? card s
  | .value (.int n) => some n
  | .value (.text symbol) => some (t.amount card symbol)
  | .value _ => none

/-- Whether a card passes a comparison: both sides stand for numbers, and these are related.
-/
def Meets (t : Tables) (card : Option String) : Entry → Prop
  | .value _ _ => False
  | .comparison l o r => ∃ m ∈ t.number? card l, ∃ n ∈ t.number? card r, o.Relates m n

instance (t : Tables) (card : Option String) (e : Entry) : Decidable (t.Meets card e) :=
  match e with
  | .value _ _ => inferInstanceAs (Decidable False)
  | .comparison l o r =>
    inferInstanceAs (Decidable (∃ m ∈ t.number? card l, ∃ n ∈ t.number? card r, o.Relates m n))

end Tables

/-! ## Each number is stored at most once -/

/-- After any changes, names of cards are keys, each card has at most one row of each kind of
statistics, and printings and blocks are of cards and sets that are there. -/
theorem keyed_after (changes : List Change) : (Database.after changes).tables.Keyed := by
  apply Database.after_preserves
  · exact .empty
  · exact fun t t' hstep h => h.insertion hstep
  · intro t t' hsame h
    -- decks are no part of what is keyed
    have hpart : t'.cardPart.Keyed :=
      hsame ▸ ⟨h.cards, h.powers, h.loyalties, h.printings, h.blocks⟩
    exact ⟨hpart.cards, hpart.powers, hpart.loyalties, hpart.printings, hpart.blocks⟩

/-- No card has two rows of one mana symbol. -/
def Tables.ManaDistinct (t : Tables) : Prop := (t.mana.map fun r => (r.card, r.symbol)).Nodup

theorem manaDistinct_insertion {t t' : Tables} (h : Tables.Insertion t t')
    (ht : t.ManaDistinct) : t'.ManaDistinct := by
  cases h with
  | mana r hnew hcard =>
    -- a row of the same card and symbol would have made the insertion be skipped
    have hfresh : (r.card, r.symbol) ∉ t.mana.map fun r => (r.card, r.symbol) := by
      intro hmem
      obtain ⟨b, hb, hkey⟩ := List.mem_map.1 hmem
      obtain ⟨hcard, hsymbol⟩ := Prod.mk.inj hkey
      exact List.any_eq_false.1 hnew b hb (by simp [hcard, hsymbol])
    rw [Tables.ManaDistinct, List.map_append, List.map_singleton]
    exact List.Nodup.append ht (List.nodup_singleton _)
      (List.disjoint_singleton.2 hfresh)
  | label s r hnew hcard => cases s <;> exact ht
  | _ => exact ht

theorem manaDistinct_after (changes : List Change) :
    (Database.after changes).tables.ManaDistinct := by
  apply Database.after_preserves
  · exact List.nodup_nil
  · exact fun t t' h ht => manaDistinct_insertion h ht
  · intro t t' hsame ht
    have hmana := congrArg Tables.mana hsame
    rw [Tables.ManaDistinct, show t'.mana = t.mana from hmana]
    exact ht

/-! ## Statistics as records -/

theorem ofText?_eq_text {name : Option String} {n : String} :
    Cell.ofText? name = .text n ↔ name = some n := by
  cases name <;> simp [Cell.ofText?]

/-- Where names are keys, a column of the first row of a name is that of any record of it. -/
theorem find?_map_eq_some {ρ : Type} {key : ρ → Option String} {rows : List ρ}
    (hkeyed : FirstOfKey key rows) {value : ρ → Int} {record : ρ → Record} {k v : String}
    (hkey : ∀ r, (record r).cell k = .ofText? (key r))
    (hvalue : ∀ r, (record r).cell v = .integer (value r)) {name : String} {n : Int} :
    (rows.find? fun r => key r == some name).map value = some n ↔
      ∃ r ∈ rows.map record, r.cell k = .text name ∧ r.cell v = .integer n := by
  simp only [List.mem_map, exists_exists_and_eq_and, hkey, hvalue, ofText?_eq_text,
    Cell.integer.injEq, Option.map_eq_some_iff]
  constructor
  · rintro ⟨r, hr, rfl⟩
    exact ⟨r, List.mem_of_find?_eq_some hr, by simpa using List.find?_some hr, rfl⟩
  · rintro ⟨r, hr, hname, rfl⟩
    exact ⟨r, hkeyed r hr name hname, rfl⟩

section

variable {t : Tables}

/-- The statistic of a card is what any record of it holds, in the statistic's own table. -/
theorem stat?_eq_some (ht : t.Keyed) {s : Stat} {name : String} {n : Int} :
    t.stat? (some name) s = some n ↔ ∃ r ∈ t.relations s.place.1,
      r.cell s.place.2.2 = .text name ∧ r.cell s.place.2.1 = .integer n := by
  cases s with
  | cmc => exact find?_map_eq_some ht.cards (fun _ => rfl) (fun _ => rfl)
  | power => exact find?_map_eq_some ht.powers (fun _ => rfl) (fun _ => rfl)
  | toughness => exact find?_map_eq_some ht.powers (fun _ => rfl) (fun _ => rfl)
  | loyalty => exact find?_map_eq_some ht.loyalties (fun _ => rfl) (fun _ => rfl)

/-- Every record in the table of a statistic holds an integer there. -/
theorem exists_integer_stat (s : Stat) {r : Record} (hr : r ∈ t.relations s.place.1) :
    ∃ n, r.cell s.place.2.1 = .integer n := by
  cases s <;> obtain ⟨row, -, rfl⟩ := List.mem_map.1 hr <;> exact ⟨_, rfl⟩

/-- Which statistics cards have: a stored card has a cost, and the others are there with
their rows. -/
theorem isSome_stat? (name : String) :
    ((t.stat? (some name) .cmc).isSome ↔ t.hasCard name = true) ∧
    ((t.stat? (some name) .power).isSome ↔ ∃ r ∈ t.powers, r.card = some name) ∧
    ((t.stat? (some name) .toughness).isSome ↔ ∃ r ∈ t.powers, r.card = some name) ∧
    ((t.stat? (some name) .loyalty).isSome ↔ ∃ r ∈ t.loyalties, r.card = some name) := by
  simp [Tables.stat?, Tables.hasCard]

/-! ## Amounts of mana by rows -/

theorem amount_of_mem (ht : t.ManaDistinct) {r : ManaRow} (hr : r ∈ t.mana) :
    t.amount (some r.card) r.symbol = r.quantity := by
  have hfound : (t.mana.find? fun x => some x.card == some r.card && x.symbol == r.symbol) =
      some r := by
    cases hfind : t.mana.find? fun x => some x.card == some r.card && x.symbol == r.symbol with
    | none => exact absurd (List.find?_eq_none.1 hfind r hr) (by simp)
    | some x =>
      -- the found row has the same key, so it is this one
      have hkey := List.find?_some hfind
      have hsame : (x.card, x.symbol) = (r.card, r.symbol) := by simpa using hkey
      rw [List.inj_on_of_nodup_map ht (List.mem_of_find?_eq_some hfind) hr hsame]
  rw [Tables.amount, hfound]

theorem amount_of_forall_ne {card : Option String} {symbol : String}
    (h : ∀ r ∈ t.mana, ¬(card = some r.card ∧ r.symbol = symbol)) : t.amount card symbol = 0 := by
  have hnone : (t.mana.find? fun r => some r.card == card && r.symbol == symbol) = none := by
    rw [List.find?_eq_none]
    intro r hr hkey
    obtain ⟨hcard, hsymbol⟩ := Bool.and_eq_true_iff.1 hkey
    exact h r hr ⟨(eq_of_beq hcard).symm, eq_of_beq hsymbol⟩
  rw [Tables.amount, hnone]

end

end CardArchive
