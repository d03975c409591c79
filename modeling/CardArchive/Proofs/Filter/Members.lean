import CardArchive.Proofs.Filter.Fragments
import CardArchive.Proofs.Statement.Selection

/-!
# Tests of a card by its values

A table that puts a value beside a card's name in each of its records says of every card
which values it has, some of them perhaps in several records. The nested selections of
a category ask of such a table whether a card has all of some values, one of them, or
none. Which aliases they use, and in which scope they are asked, does not matter.

## What this module delivers

* `Relations.Pairs`: the names and values that a table puts side by side.
* `Relations.Lists`: the same for a table with others joined to it.
* `holds_selectCovering`, `holds_selectMembers`: the tests of a card against such a list.
* `holds_covering`, `holds_member`, `holds_nonmember`: the three tests of a card.
* `holds_nonmember_null`: the test for none, of a card without a name.
* `holds_listed`, `holds_unlisted`: the tests of a row's own value.
* `forall_layout_given`: the tests that are laid out, one by one.
-/

set_option autoImplicit false

namespace CardArchive

open CardArchive.Numbering

/-! ## Cells among others -/

/-- A cell is not among others if there are none, or if it is known to differ from each. -/
theorem among_eq_false {c : Cell} {cells : List Cell} :
    among c cells = some false ↔ cells = [] ∨ (c ≠ .null ∧ c ∉ cells ∧ .null ∉ cells) := by
  unfold among
  by_cases hempty : cells.isEmpty = true
  · rw [if_pos hempty]
    simp [List.isEmpty_iff.1 hempty]
  · have hne : cells ≠ [] := fun h => hempty (List.isEmpty_iff.2 h)
    rw [if_neg hempty]
    by_cases hnull : c = .null
    · simp [hnull, hne]
    · rw [if_neg hnull]
      by_cases hmem : c ∈ cells
      · simp [hmem, hne]
      · by_cases hunknown : Cell.null ∈ cells
        · simp [hmem, hunknown, hne]
        · simp [hmem, hunknown, hnull]

/-- Different texts are different cells. -/
theorem distinctCount_texts {values : List String} (h : values.Nodup) :
    distinctCount (values.map Cell.text) = values.length := by
  have hkept : (values.map Cell.text).filter (· ≠ .null) = values.map Cell.text := by
    rw [List.filter_eq_self]
    intro c hc
    obtain ⟨v, -, rfl⟩ := List.mem_map.1 hc
    simp
  have hnodup : (values.map Cell.text).Nodup := h.map fun _ _ heq => Cell.text.inj heq
  rw [distinctCount, hkept, eraseDups_of_nodup hnodup, List.length_map]

/-! ## Tests of one row -/

section

variable {db : Relations} {s : Scope} {key : Column} {nested : Select}

theorem map_cell_text (values : List String) :
    (values.map Literal.text).map Literal.cell = values.map Cell.text := by
  rw [List.map_map]
  rfl

theorem holds_listed {c : Column} {values : List String} :
    (inTexts c values false).Holds db s ↔ ∃ v ∈ values, s.cell c = .text v := by
  rw [Expr.Holds, inTexts, Expr.value, Cell.truth_ofTruth, map_cell_text]
  change among _ _ = some true ↔ _
  rw [among_eq_true, List.mem_map]
  constructor
  · rintro ⟨-, v, hv, heq⟩
    exact ⟨v, hv, heq.symm⟩
  · rintro ⟨v, hv, heq⟩
    rw [heq]
    exact ⟨by simp, v, hv, rfl⟩

theorem holds_unlisted {c : Column} {values : List String} {w : String}
    (hcell : s.cell c = .text w) : (inTexts c values true).Holds db s ↔ w ∉ values := by
  have hflip : ∀ t : Truth, t.flip true = some true ↔ t = some false := by
    intro t
    rcases t with _ | b
    · simp [Truth.flip]
    · cases b <;> simp [Truth.flip]
  rw [Expr.Holds, inTexts, Expr.value, Cell.truth_ofTruth, map_cell_text, hcell, hflip,
    among_eq_false]
  constructor
  · rintro (hempty | ⟨-, hmem, -⟩) hw
    · rw [List.map_eq_nil_iff.1 hempty] at hw
      exact List.not_mem_nil hw
    · exact hmem (List.mem_map_of_mem hw)
  · intro hw
    exact .inr ⟨by simp, by simpa using hw, by simp⟩

theorem holds_cardTest_false :
    (cardTest key (nested, false)).Holds db s ↔
      s.cell key ≠ .null ∧ s.cell key ∈ firstCells (nested.rows db s) := by
  rw [Expr.Holds, cardTest, Expr.value, Cell.truth_ofTruth, Query.rows]
  exact among_eq_true

theorem holds_cardTest_true :
    (cardTest key (nested, true)).Holds db s ↔ firstCells (nested.rows db s) = [] ∨
      (s.cell key ≠ .null ∧ s.cell key ∉ firstCells (nested.rows db s) ∧
        .null ∉ firstCells (nested.rows db s)) := by
  rw [← among_eq_false, Expr.Holds, cardTest, Expr.value, Cell.truth_ofTruth, Query.rows]
  rcases among (s.cell key) (firstCells (nested.rows db s)) with _ | b
  · simp [Truth.flip]
  · cases b <;> simp [Truth.flip]

end

/-! ## Tables of values -/

/-- A table puts these names of cards and values side by side, and nothing else. -/
def Relations.Pairs (db : Relations) (table column : String) (pairs : List (String × String)) :
    Prop :=
  (db table).map (fun r => (r.cell "card_name", r.cell column)) =
    pairs.map fun p => (Cell.text p.1, Cell.text p.2)

theorem Relations.Pairs.mem_iff {db : Relations} {table column : String}
    {pairs : List (String × String)} (hpairs : db.Pairs table column pairs) {k v : Cell} :
    (∃ r ∈ db table, r.cell "card_name" = k ∧ r.cell column = v) ↔
      ∃ p ∈ pairs, k = .text p.1 ∧ v = .text p.2 := by
  have hmem : (k, v) ∈ (db table).map (fun r => (r.cell "card_name", r.cell column)) ↔
      (k, v) ∈ pairs.map fun p => (Cell.text p.1, Cell.text p.2) := by rw [hpairs]
  simp only [List.mem_map, Prod.mk.injEq] at hmem
  rw [hmem]
  exact exists_congr fun p => and_congr_right fun _ => and_congr eq_comm eq_comm

/-- The different values that a card has among some values are these values exactly if it
has all of them. -/
theorem distinctCount_values {pairs : List (String × String)} {values : List String}
    (hnodup : values.Nodup) (name : String) :
    distinctCount (((((pairs.filter fun p => p.2 ∈ values).map fun p =>
        (Cell.text p.1, Cell.text p.2)).filter fun p => p.1 == .text name).map Prod.snd)) =
      values.length ↔ ∀ v ∈ values, (name, v) ∈ pairs := by
  -- as cells, they are the values that stand beside the name
  have hsame : distinctCount (((((pairs.filter fun p => p.2 ∈ values).map fun p =>
        (Cell.text p.1, Cell.text p.2)).filter fun p => p.1 == .text name).map Prod.snd)) =
      distinctCount ((values.filter fun v => (name, v) ∈ pairs).map Cell.text) := by
    apply distinctCount_congr
    intro c
    simp only [List.mem_map, List.mem_filter, beq_iff_eq, decide_eq_true_eq]
    constructor
    · rintro ⟨_, ⟨⟨⟨name', v⟩, ⟨hp, hin⟩, rfl⟩, hname⟩, rfl⟩
      obtain rfl : name' = name := Cell.text.inj hname
      exact ⟨v, ⟨hin, hp⟩, rfl⟩
    · rintro ⟨v, ⟨hin, hp⟩, rfl⟩
      exact ⟨_, ⟨⟨(name, v), ⟨hp, hin⟩, rfl⟩, rfl⟩, rfl⟩
  rw [hsame, distinctCount_texts (hnodup.filter _)]
  constructor
  · intro hlength v hv
    have hall := List.length_filter_eq_length_iff.1 hlength v hv
    exact of_decide_eq_true hall
  · intro hall
    exact List.length_filter_eq_length_iff.2 fun v hv => decide_eq_true (hall v hv)

/-- Rows of a table, with others joined to them, put these names of cards and values side by
side, and nothing else. -/
def Relations.Lists (db : Relations) (table : String) (joins : List Join) (key column : Column)
    (pairs : List (String × String)) : Prop :=
  ∀ (scope : Scope) (k v : Cell),
    (∃ s ∈ extendAll db ((db table).map fun r => scope.bind key.source r) joins,
      s.cell key = k ∧ s.cell column = v) ↔ ∃ p ∈ pairs, k = .text p.1 ∧ v = .text p.2

/-- A table that puts names and values side by side does so without any join. -/
theorem Relations.Pairs.lists {db : Relations} {table column : String}
    {pairs : List (String × String)} (hpairs : db.Pairs table column pairs) (source : String) :
    db.Lists table [] ⟨source, "card_name"⟩ ⟨source, column⟩ pairs := by
  intro scope k v
  rw [← hpairs.mem_iff, extendAll]
  simp only [List.mem_map]
  constructor
  · rintro ⟨_, ⟨r, hr, rfl⟩, hk, hv⟩
    rw [Scope.cell, Scope.bind_self] at hk hv
    exact ⟨r, hr, hk, hv⟩
  · rintro ⟨r, hr, hk, hv⟩
    refine ⟨_, ⟨r, hr, rfl⟩, ?_, ?_⟩
    · rw [Scope.cell, Scope.bind_self, hk]
    · rw [Scope.cell, Scope.bind_self, hv]

section

variable {db : Relations} {table : String} {joins : List Join} {key column : Column}
  {pairs : List (String × String)} (hlists : db.Lists table joins key column pairs) {s : Scope}
  {values : List String}
include hlists

/-- The names and values that a selection of rows by their value keeps. -/
theorem mem_kept_listed {k v : Cell} :
    (∃ s' ∈ keptScopes db s table key.source joins [inTexts column values false],
      s'.cell key = k ∧ s'.cell column = v) ↔
      (k, v) ∈ (pairs.filter fun p => p.2 ∈ values).map fun p => (Cell.text p.1, Cell.text p.2) := by
  simp only [mem_keptScopes, List.mem_map, List.forall_mem_singleton, holds_listed,
    List.mem_filter, decide_eq_true_eq, Prod.mk.injEq]
  constructor
  · rintro ⟨s', ⟨hs', w, hw, hvalue⟩, hk, hv⟩
    obtain ⟨p, hp, hname, hlabel⟩ := (hlists s k v).1 ⟨s', hs', hk, hv⟩
    have hin : p.2 = w := Cell.text.inj ((hlabel.symm.trans hv.symm).trans hvalue)
    exact ⟨p, ⟨hp, hin ▸ hw⟩, hname.symm, hlabel.symm⟩
  · rintro ⟨p, ⟨hp, hin⟩, hname, hlabel⟩
    obtain ⟨s', hs', hk, hv⟩ := (hlists s k v).2 ⟨p, hp, hname.symm, hlabel.symm⟩
    exact ⟨s', ⟨hs', p.2, hin, hv.trans hlabel.symm⟩, hk, hv⟩

/-- A selection of rows by their value lists the names that stand beside one of the values. -/
theorem mem_members {cell : Cell} :
    cell ∈ firstCells ((selectColumn key table joins [inTexts column values false]).rows db s) ↔
      ∃ p ∈ pairs, p.2 ∈ values ∧ cell = .text p.1 := by
  rw [selectColumn, mem_cells_single]
  constructor
  · rintro ⟨s', hs', hcell⟩
    obtain ⟨p, hp, heq⟩ := List.mem_map.1 ((mem_kept_listed hlists).1 ⟨s', hs', hcell, rfl⟩)
    obtain ⟨hp, hin⟩ := List.mem_filter.1 hp
    exact ⟨p, hp, of_decide_eq_true hin, (Prod.mk.inj heq).1.symm⟩
  · rintro ⟨p, hp, hin, rfl⟩
    have hkept : (Cell.text p.1, Cell.text p.2) ∈
        (pairs.filter fun p => p.2 ∈ values).map fun p => (Cell.text p.1, Cell.text p.2) :=
      List.mem_map.2 ⟨p, List.mem_filter.2 ⟨hp, decide_eq_true hin⟩, rfl⟩
    obtain ⟨s', hs', hname, -⟩ := (mem_kept_listed (s := s) hlists).2 hkept
    exact ⟨s', hs', hname⟩

theorem text_mem_members {name : String} :
    .text name ∈ firstCells ((selectColumn key table joins
        [inTexts column values false]).rows db s) ↔ ∃ v ∈ values, (name, v) ∈ pairs := by
  rw [mem_members hlists]
  constructor
  · rintro ⟨⟨name', v⟩, hp, hin, hname⟩
    obtain rfl : name = name' := Cell.text.inj hname
    exact ⟨v, hin, hp⟩
  · rintro ⟨v, hin, hp⟩
    exact ⟨(name, v), hp, hin, rfl⟩

/-- A selection by groups lists the names that stand beside every one of the values, if
there is a value to ask for. -/
theorem text_mem_covering (hnodup : values.Nodup) (hne : values ≠ []) {name : String} :
    .text name ∈ firstCells ((selectCovering key table joins column values).rows db s) ↔
      ∀ v ∈ values, (name, v) ∈ pairs := by
  rw [selectCovering, mem_cells_covering fun _ _ => mem_kept_listed hlists,
    distinctCount_values hnodup name]
  constructor
  · rintro ⟨-, hall⟩
    exact hall
  · -- the first value is one that the name stands beside
    intro hall
    obtain ⟨v, hv⟩ := List.exists_mem_of_ne_nil _ hne
    refine ⟨⟨.text v, List.mem_map.2 ⟨(name, v), ?_, rfl⟩⟩, hall⟩
    exact List.mem_filter.2 ⟨hall v hv, decide_eq_true hv⟩

variable {card : Column} {name : String}

theorem holds_selectCovering (hnodup : values.Nodup) (hne : values ≠ [])
    (hcard : s.cell card = .text name) :
    (cardTest card (selectCovering key table joins column values, false)).Holds db s ↔
      ∀ v ∈ values, (name, v) ∈ pairs := by
  refine holds_cardTest_false.trans ?_
  rw [hcard]
  exact (and_iff_right (by simp)).trans (text_mem_covering hlists hnodup hne)

theorem holds_selectMembers (hcard : s.cell card = .text name) :
    (cardTest card (selectColumn key table joins [inTexts column values false], false)).Holds
      db s ↔ ∃ v ∈ values, (name, v) ∈ pairs := by
  refine holds_cardTest_false.trans ?_
  rw [hcard]
  exact (and_iff_right (by simp)).trans (text_mem_members hlists)

end

/-! ## Tests of a card -/

section

variable {db : Relations} {table column : String} {pairs : List (String × String)}
  (hpairs : db.Pairs table column pairs) {s : Scope} {values : List String} {key : Column}
  {name : String}
include hpairs

theorem holds_covering (hnodup : values.Nodup) (hne : values ≠ [])
    (hkey : s.cell key = .text name) (m : Nat) :
    (cardTest key ((coveringNested table column values).build m)).Holds db s ↔
      ∀ v ∈ values, (name, v) ∈ pairs :=
  holds_selectCovering (hpairs.lists _) hnodup hne hkey

theorem holds_member (hkey : s.cell key = .text name) (m : Nat) :
    (cardTest key ((memberNested table column values false).build m)).Holds db s ↔
      ∃ v ∈ values, (name, v) ∈ pairs :=
  holds_selectMembers (hpairs.lists _) hkey

theorem holds_nonmember (hkey : s.cell key = .text name) (m : Nat) :
    (cardTest key ((memberNested table column values true).build m)).Holds db s ↔
      ∀ v ∈ values, (name, v) ∉ pairs := by
  have hlists := hpairs.lists (aliasName m)
  refine holds_cardTest_true.trans ?_
  rw [hkey]
  constructor
  · intro h v hin hp
    have hmem := (text_mem_members hlists (s := s)).2 ⟨v, hin, hp⟩
    rcases h with hempty | ⟨-, habsent, -⟩
    · exact List.ne_nil_of_mem hmem hempty
    · exact habsent hmem
  · intro hnone
    refine .inr ⟨by simp, ?_, ?_⟩
    · intro hmem
      obtain ⟨v, hin, hp⟩ := (text_mem_members hlists).1 hmem
      exact hnone v hin hp
    · -- every listed card has a name, so a named card is known to be none of them
      intro hnull
      obtain ⟨p, -, -, hcell⟩ := (mem_members hlists).1 hnull
      cases hcell

/-- Of a card without a name it is known only then that it has none of some values, when no
card has one of them. -/
theorem holds_nonmember_null (hkey : s.cell key = .null) (m : Nat) :
    (cardTest key ((memberNested table column values true).build m)).Holds db s ↔
      ∀ p ∈ pairs, p.2 ∉ values := by
  have hlists := hpairs.lists (aliasName m)
  refine holds_cardTest_true.trans ?_
  rw [hkey]
  constructor
  · rintro (hempty | ⟨hnull, -⟩) p hp hin
    · have hmem := (mem_members hlists (s := s)).2 ⟨p, hp, hin, rfl⟩
      exact List.ne_nil_of_mem hmem hempty
    · exact hnull rfl
  · intro hnone
    refine .inl (List.eq_nil_iff_forall_not_mem.2 fun cell hcell => ?_)
    obtain ⟨p, hp, hin, -⟩ := (mem_members hlists).1 hcell
    exact hnone p hp hin

end

/-! ## Tests that are laid out -/

/-- A part that is laid out only if it is needed is asked only then. -/
theorem forall_layout_given {α : Type} {P : α → Prop} {needed : Bool} {x : Numbered α} {n : Nat} :
    (∀ a ∈ layout (given needed x) n, P a) ↔ (needed = true → P (x.build n)) := by
  cases needed with
  | false => simp [given]
  | true => simp [given]

end CardArchive
