import CardArchive.Proofs.Store.Coherence
import CardArchive.Proofs.Text.Numerals

/-!
# What a cost counts

A cost is a text in which groups of braces are looked for from left to right. Everything
else of it is skipped, and so is an opening brace that is never closed. Each group counts
under one symbol: a group of digits adds its amount to generic mana, every other one counts
as itself, once for each time it occurs. Whether a group is an amount is decided by a larger
class of digits than those that numbers are written with, and this is one way in which
counting can fail; the other is an amount of more digits than can be read.

## What this module delivers

* `Grouped` and `grouped_iff`: the groups of a text, apart from the search for them.
* `IsCountable`: the groups that do not stop the count.
* `Tallies` and `tallies_of_parseManaCost`: what the count of a cost comes to.
* `parseManaCost_append`: the count of two costs side by side.
-/

set_option autoImplicit false

namespace CardArchive

open Text

/-! ## Groups of a text -/

/-- The contents of the groups of a text. A group goes from the first opening brace to the
first closing one behind it, and the next is looked for behind that. An opening brace that is
not closed ends the search. -/
inductive Grouped : List Char → List (List Char) → Prop
  | plain {cs : List Char} (h : '\x7b' ∉ cs) : Grouped cs []
  | opened {before after : List Char} (hbefore : '\x7b' ∉ before) (hafter : '\x7d' ∉ after) :
      Grouped (before ++ '\x7b' :: after) []
  | group {before content rest : List Char} {gs : List (List Char)} (hbefore : '\x7b' ∉ before)
      (hcontent : '\x7d' ∉ content) (hrest : Grouped rest gs) :
      Grouped (before ++ '\x7b' :: (content ++ '\x7d' :: rest)) (content :: gs)

/-- What stands before the first opening brace is skipped. -/
theorem groups_skip {before : List Char} (h : '\x7b' ∉ before) (rest : List Char) :
    groups (before ++ rest) = groups rest := by
  induction before with
  | nil => rfl
  | cons c before ih =>
    rw [List.mem_cons, not_or] at h
    have hskip : groups (c :: (before ++ rest)) = groups (before ++ rest) := by
      rw [groups, groupsFrom, if_neg (Ne.symm h.1)]
      rfl
    rw [List.cons_append, hskip, ih h.2]

/-- An open group goes on to the first closing brace. -/
theorem groupsFrom_closed {content : List Char} (h : '\x7d' ∉ content) (read rest : List Char) :
    groupsFrom (some read) (content ++ '\x7d' :: rest) =
      (read.reverse ++ content) :: groups rest := by
  induction content generalizing read with
  | nil =>
    rw [List.nil_append, groupsFrom, if_pos rfl, List.append_nil]
    rfl
  | cons c content ih =>
    rw [List.mem_cons, not_or] at h
    rw [List.cons_append, groupsFrom, if_neg (Ne.symm h.1), ih h.2]
    simp

/-- Without a closing brace an open group is none. -/
theorem groupsFrom_open {cs : List Char} (h : '\x7d' ∉ cs) (read : List Char) :
    groupsFrom (some read) cs = [] := by
  induction cs generalizing read with
  | nil => rfl
  | cons c cs ih =>
    rw [List.mem_cons, not_or] at h
    rw [groupsFrom, if_neg (Ne.symm h.1), ih h.2]

theorem groups_group {before content : List Char} (hbefore : '\x7b' ∉ before)
    (hcontent : '\x7d' ∉ content) (rest : List Char) :
    groups (before ++ '\x7b' :: (content ++ '\x7d' :: rest)) = content :: groups rest := by
  rw [groups_skip hbefore, groups, groupsFrom, if_pos rfl, groupsFrom_closed hcontent]
  rfl

theorem groups_of_not_mem {cs : List Char} (h : '\x7b' ∉ cs) : groups cs = [] := by
  have hskip := groups_skip h []
  rwa [List.append_nil] at hskip

theorem groups_opened {before after : List Char} (hbefore : '\x7b' ∉ before)
    (hafter : '\x7d' ∉ after) : groups (before ++ '\x7b' :: after) = [] := by
  rw [groups_skip hbefore, groups, groupsFrom, if_pos rfl, groupsFrom_open hafter]

/-- Every text has groups. -/
theorem exists_grouped (cs : List Char) : ∃ gs, Grouped cs gs := by
  -- on the length, as the search goes on behind a group
  induction hn : cs.length using Nat.strong_induction_on generalizing cs with
  | _ n ih =>
    by_cases hopen : '\x7b' ∈ cs
    · obtain ⟨before, after, rfl, hbefore⟩ := List.eq_append_cons_of_mem hopen
      by_cases hclose : '\x7d' ∈ after
      · obtain ⟨content, rest, rfl, hcontent⟩ := List.eq_append_cons_of_mem hclose
        have hless : rest.length < n := by
          simp only [List.length_append, List.length_cons] at hn
          omega
        obtain ⟨gs, hgs⟩ := ih _ hless rest rfl
        exact ⟨content :: gs, .group hbefore hcontent hgs⟩
      · exact ⟨[], .opened hbefore hclose⟩
    · exact ⟨[], .plain hopen⟩

/-- The search finds the groups of a text, and these alone. -/
theorem grouped_iff {cs : List Char} {gs : List (List Char)} : Grouped cs gs ↔ groups cs = gs := by
  have hsearch : ∀ {cs gs}, Grouped cs gs → groups cs = gs := by
    intro cs gs h
    induction h with
    | plain h => exact groups_of_not_mem h
    | opened hbefore hafter => exact groups_opened hbefore hafter
    | group hbefore hcontent _ ih => rw [groups_group hbefore hcontent, ih]
  refine ⟨hsearch, ?_⟩
  rintro rfl
  obtain ⟨gs, hgs⟩ := exists_grouped cs
  rwa [hsearch hgs]

/-! ## What a group counts -/

/-- A group of digits that all have a value and are not too many, or that is no group of
digits. -/
def IsCountable (g : List Char) : Prop :=
  isAmount g = true → g.all isDecimal = true ∧ g.length ≤ digitLimit

instance (g : List Char) : Decidable (IsCountable g) :=
  inferInstanceAs (Decidable (isAmount g = true → g.all isDecimal = true ∧ g.length ≤ digitLimit))

/-- The symbol that a group counts under, and how much of it. An amount of zero counts
nothing. -/
def counted (g : List Char) : Option (String × Nat) :=
  if isAmount g then
    if 0 < natOfDigits g then some (genericMana, natOfDigits g) else none
  else some (symbolOf g, 1)

/-- A group is counted, or stops the count by a digit without a value or by its length. -/
theorem contribution_eq_ok {g : List Char} {q : Option (String × Nat)} :
    contribution g = .ok q ↔ IsCountable g ∧ q = counted g := by
  rw [contribution, counted, IsCountable]
  cases hamount : isAmount g with
  | false =>
    simp only [Bool.false_eq_true, if_false, false_implies, true_and, Except.ok.injEq]
    exact eq_comm
  | true =>
    simp only [isAmount, Bool.and_eq_true, Bool.not_eq_true', List.isEmpty_eq_false_iff,
      List.all_eq_true] at hamount
    obtain ⟨hne, hdigits⟩ := hamount
    have hread := readInteger?_of_isDigitLike hne hdigits
    simp only [if_true, true_implies, Value.toInteger, String.toList_ofList, hread]
    by_cases hreadable : g.all isDecimal = true ∧ g.length ≤ digitLimit
    · simp only [hreadable, decide_true, Bool.and_self, if_true, ok_bind, pure_eq_ok,
        Int.natCast_pos, Int.toNat_natCast, and_self, true_and]
      exact eq_comm
    · have hrefused : (g.all isDecimal && decide (g.length ≤ digitLimit)) = false := by
        rw [Bool.and_eq_false_iff, decide_eq_false_iff_not, ← Bool.not_eq_true]
        exact not_and_or.1 hreadable
      simp only [hrefused, hreadable, Bool.false_eq_true, if_false, false_and, iff_false]
      rintro ⟨⟩

theorem symbolOf_injective {g g' : List Char} (h : symbolOf g = symbolOf g') : g = g' := by
  have hchars : '\x7b' :: (g ++ ['\x7d']) = '\x7b' :: (g' ++ ['\x7d']) :=
    String.ofList_injective h
  exact List.append_cancel_right (List.cons.inj hchars).2

/-- A group that is no amount never counts as generic mana. -/
theorem symbolOf_ne_genericMana {g : List Char} (h : isAmount g = false) :
    symbolOf g ≠ genericMana := by
  intro hsame
  have hone : genericMana = symbolOf ['1'] := rfl
  obtain rfl := symbolOf_injective (hsame.trans hone)
  exact absurd h (by decide)

/-! ## Counting groups -/

namespace Counts

/-- Some amounts added one after the other. -/
def added (counts : Counts) (qs : List (String × Nat)) : Counts :=
  qs.foldl (fun counts q => counts.plus q.1 q.2) counts

theorem added_append (counts : Counts) (qs qs' : List (String × Nat)) :
    counts.added (qs ++ qs') = (counts.added qs).added qs' := List.foldl_append

theorem amount_added (counts : Counts) (qs : List (String × Nat)) (symbol : String) :
    (counts.added qs).amount symbol =
      counts.amount symbol + ((qs.filter fun q => q.1 == symbol).map Prod.snd).sum := by
  induction qs generalizing counts with
  | nil => rfl
  | cons q qs ih =>
    obtain ⟨s, n⟩ := q
    have hstep : counts.added ((s, n) :: qs) = (counts.plus s n).added qs := rfl
    rw [hstep, ih]
    by_cases hs : s = symbol
    · rw [hs, amount_plus_self, List.filter_cons_of_pos (by simp), List.map_cons, List.sum_cons,
        Nat.add_assoc]
    · rw [amount_plus_ne (Ne.symm hs), List.filter_cons_of_neg (by simp [hs])]

/-- New symbols come behind the ones that are there, in the order in which they are met. -/
theorem map_fst_added (counts : Counts) (qs : List (String × Nat)) :
    (counts.added qs).map Prod.fst = counts.map Prod.fst ++
      ((qs.map Prod.fst).filter fun s => s ∉ counts.map Prod.fst).eraseDups := by
  rw [← Tables.foldl_addTo]
  induction qs generalizing counts with
  | nil => rfl
  | cons q qs ih =>
    have hstep : counts.added (q :: qs) = (counts.plus q.1 q.2).added qs := rfl
    rw [hstep, ih, Tables.map_fst_plus]
    rfl

end Counts

theorem countGroups_eq_ok {gs : List (List Char)} {counts result : Counts} :
    countGroups counts gs = .ok result ↔
      (∀ g ∈ gs, IsCountable g) ∧ result = counts.added (gs.filterMap counted) := by
  induction gs generalizing counts with
  | nil => simp [Counts.added, eq_comm]
  | cons g gs ih =>
    rw [countGroups, bind_eq_ok, List.forall_mem_cons]
    constructor
    · rintro ⟨q, hq, h⟩
      obtain ⟨hg, rfl⟩ := contribution_eq_ok.1 hq
      obtain ⟨hgs, hresult⟩ := ih.1 h
      refine ⟨⟨hg, hgs⟩, ?_⟩
      rw [hresult, List.filterMap_cons]
      cases counted g with
      | none => rfl
      | some q => rfl
    · rintro ⟨⟨hg, hgs⟩, hresult⟩
      refine ⟨counted g, contribution_eq_ok.2 ⟨hg, rfl⟩, ih.2 ⟨hgs, ?_⟩⟩
      rw [hresult, List.filterMap_cons]
      cases counted g with
      | none => rfl
      | some q => rfl

/-- What the count of some groups comes to. Generic mana has the sum of the amounts, every
other symbol the number of its groups, and a symbol stands where it is first counted. -/
structure Tallies (gs : List (List Char)) (counts : Counts) : Prop where
  symbols : counts.map Prod.fst = ((gs.filterMap counted).map Prod.fst).eraseDups
  positive : ∀ q ∈ counts, 1 ≤ q.2
  generic : counts.amount genericMana = ((gs.filter isAmount).map natOfDigits).sum
  others : ∀ g, isAmount g = false → counts.amount (symbolOf g) = gs.count g

theorem sum_generic (gs : List (List Char)) :
    (((gs.filterMap counted).filter fun q => q.1 == genericMana).map Prod.snd).sum =
      ((gs.filter isAmount).map natOfDigits).sum := by
  induction gs with
  | nil => rfl
  | cons g gs ih =>
    rw [List.filterMap_cons, counted]
    cases hg : isAmount g with
    | false =>
      have hother : (symbolOf g == genericMana) = false :=
        beq_false_of_ne (symbolOf_ne_genericMana hg)
      simp [hg, hother, ih]
    | true =>
      rw [List.filter_cons_of_pos hg, List.map_cons, List.sum_cons, ← ih]
      by_cases hzero : 0 < natOfDigits g
      · simp [hzero]
      · have hnone : natOfDigits g = 0 := Nat.eq_zero_of_not_pos hzero
        simp [hnone]

theorem sum_others (gs : List (List Char)) {g : List Char} (hg : isAmount g = false) :
    (((gs.filterMap counted).filter fun q => q.1 == symbolOf g).map Prod.snd).sum =
      gs.count g := by
  induction gs with
  | nil => rfl
  | cons g' gs ih =>
    rw [List.filterMap_cons, counted, List.count_cons, ← ih]
    cases hg' : isAmount g' with
    | true =>
      have hother : (genericMana == symbolOf g) = false :=
        beq_false_of_ne (symbolOf_ne_genericMana hg).symm
      have hne : (g' == g) = false := by
        apply beq_false_of_ne
        rintro rfl
        rw [hg] at hg'
        cases hg'
      by_cases hzero : 0 < natOfDigits g' <;> simp [hzero, hother, hne]
    | false =>
      by_cases hsame : g' = g
      · rw [hsame]
        simp [Nat.add_comm]
      · have hother : (symbolOf g' == symbolOf g) = false :=
          beq_false_of_ne fun h => hsame (symbolOf_injective h)
        simp [hother, hsame]

/-- A cost is counted exactly if all of its groups are countable. -/
theorem exists_parseManaCost {cost : String} {gs : List (List Char)}
    (h : Grouped cost.toList gs) :
    (∃ counts, parseManaCost cost = .ok counts) ↔ ∀ g ∈ gs, IsCountable g := by
  obtain rfl := grouped_iff.1 h
  constructor
  · rintro ⟨counts, hcounts⟩
    exact (countGroups_eq_ok.1 hcounts).1
  · intro hgs
    exact ⟨_, countGroups_eq_ok.2 ⟨hgs, rfl⟩⟩

/-- What is counted of a cost is what its groups come to. -/
theorem tallies_of_parseManaCost {cost : String} {gs : List (List Char)} {counts : Counts}
    (hgs : Grouped cost.toList gs) (h : parseManaCost cost = .ok counts) : Tallies gs counts := by
  obtain rfl := grouped_iff.1 hgs
  obtain ⟨-, hcounts⟩ := countGroups_eq_ok.1 h
  have hamount := fun symbol =>
    (Counts.amount_added [] ((groups cost.toList).filterMap counted) symbol)
  simp only [← hcounts, Counts.amount, Nat.zero_add] at hamount
  constructor
  · have hkeys := Counts.map_fst_added [] ((groups cost.toList).filterMap counted)
    rw [← hcounts] at hkeys
    simpa using hkeys
  · exact one_le_parseManaCost h
  · rw [hamount, sum_generic]
  · intro g hg
    rw [hamount, sum_others _ hg]

/-! ## Costs side by side -/

/-- What stands behind the last closing brace of a text, all of it if there is none. -/
def behindClosing (cs : List Char) : List Char := (cs.reverse.takeWhile (· != '\x7d')).reverse

theorem behindClosing_closed (before after : List Char) :
    behindClosing (before ++ '\x7d' :: after) = behindClosing after := by
  have hreverse : (before ++ '\x7d' :: after).reverse =
      after.reverse ++ '\x7d' :: before.reverse := by simp
  rw [behindClosing, behindClosing, hreverse, List.takeWhile_append]
  split
  · rename_i hall
    rw [List.takeWhile_cons_of_neg (by simp), List.append_nil,
      (List.takeWhile_prefix _).eq_of_length hall]
  · rfl

/-- An opening brace that is not closed stands behind the last closing one. -/
theorem opening_mem_behindClosing (before : List Char) {after : List Char} (h : '\x7d' ∉ after) :
    '\x7b' ∈ behindClosing (before ++ '\x7b' :: after) := by
  have hreverse : (before ++ '\x7b' :: after).reverse =
      after.reverse ++ '\x7b' :: before.reverse := by simp
  have hall : ∀ c ∈ after.reverse, (c != '\x7d') = true := by
    intro c hc
    rw [bne_iff_ne]
    rintro rfl
    exact h (List.mem_reverse.1 hc)
  rw [behindClosing, hreverse, List.takeWhile_append_of_pos hall,
    List.takeWhile_cons_of_pos (by decide)]
  simp

/-- The groups of two texts side by side are those of each, unless a brace of the first is
closed in the second. -/
theorem groups_append {a : List Char} (h : '\x7b' ∉ behindClosing a) (b : List Char) :
    groups (a ++ b) = groups a ++ groups b := by
  obtain ⟨gs, hgs⟩ := exists_grouped a
  rw [grouped_iff.1 hgs]
  induction hgs with
  | plain hplain => rw [groups_skip hplain, List.nil_append]
  | @opened before after hbefore hafter =>
    exact absurd (opening_mem_behindClosing before hafter) h
  | @group before content rest gs hbefore hcontent _ ih =>
    have hsplit : before ++ '\x7b' :: (content ++ '\x7d' :: rest) =
        (before ++ '\x7b' :: content) ++ '\x7d' :: rest := by simp
    -- the last closing brace stands in what is left behind the group, or ends it
    rw [hsplit, behindClosing_closed] at h
    have happend : before ++ '\x7b' :: (content ++ '\x7d' :: rest) ++ b =
        before ++ '\x7b' :: (content ++ '\x7d' :: (rest ++ b)) := by simp
    rw [happend, groups_group hbefore hcontent, ih h, List.cons_append]

/-- A cost that leaves no brace open, with another one behind it, counts what the two count:
the amounts are added symbol by symbol, and the new symbols of the second come behind those of
the first. -/
theorem parseManaCost_append {a b : String} {ca cb : Counts}
    (hclosed : '\x7b' ∉ behindClosing a.toList) (ha : parseManaCost a = .ok ca)
    (hb : parseManaCost b = .ok cb) :
    ∃ c, parseManaCost (a ++ b) = .ok c ∧ (c.map Prod.fst).Nodup ∧
      (∀ symbol, c.amount symbol = ca.amount symbol + cb.amount symbol) ∧
      c.map Prod.fst =
        ca.map Prod.fst ++ (cb.map Prod.fst).filter fun s => s ∉ ca.map Prod.fst := by
  obtain ⟨hgroups, rfl⟩ := countGroups_eq_ok.1 ha
  obtain ⟨hgroups', rfl⟩ := countGroups_eq_ok.1 hb
  have hsplit : groups (a ++ b).toList = groups a.toList ++ groups b.toList := by
    rw [String.toList_append, groups_append hclosed]
  have hcount : parseManaCost (a ++ b) =
      .ok (Counts.added [] ((groups (a ++ b).toList).filterMap counted)) := by
    refine countGroups_eq_ok.2 ⟨?_, rfl⟩
    rw [hsplit]
    exact List.forall_mem_append.2 ⟨hgroups, hgroups'⟩
  have hnodup : (List.map Prod.fst ([] : Counts)).Nodup := List.nodup_nil
  refine ⟨_, hcount, Tables.nodup_countGroups hnodup hcount, ?_, ?_⟩
  · intro symbol
    rw [hsplit, List.filterMap_append, Counts.added_append, Counts.amount_added,
      Counts.amount_added [] ((groups b.toList).filterMap counted)]
    simp only [Counts.amount, Nat.zero_add]
  · -- dropping repetitions of the second and leaving out the first's commute
    rw [hsplit, List.filterMap_append, Counts.added_append, Counts.map_fst_added,
      Counts.map_fst_added [] ((groups b.toList).filterMap counted)]
    simp only [List.map_nil, List.nil_append, List.not_mem_nil, not_false_eq_true, decide_true,
      List.filter_true, filter_eraseDups]

/-- Stray braces on either side of the boundary, one group that holds an opening brace, and
generic mana in both. -/
theorem parseManaCost_strayBraces :
    ∃ c, parseManaCost ("\x7d\x7b2\x7d\x7b\x7bU\x7dx\x7d" ++ "\x7d\x7b3\x7d\x7bU\x7d\x7b") = .ok c ∧
      c.amount genericMana = 5 ∧
      c.map Prod.fst = [genericMana, "\x7b\x7bU\x7d", "\x7bU\x7d"] := by
  have hclosed : '\x7b' ∉ behindClosing "\x7d\x7b2\x7d\x7b\x7bU\x7dx\x7d".toList := by decide
  have ha : parseManaCost "\x7d\x7b2\x7d\x7b\x7bU\x7dx\x7d" =
      .ok [(genericMana, 2), ("\x7b\x7bU\x7d", 1)] := by rfl
  have hb : parseManaCost "\x7d\x7b3\x7d\x7bU\x7d\x7b" =
      .ok [(genericMana, 3), ("\x7bU\x7d", 1)] := by rfl
  obtain ⟨c, hc, -, hamount, hkeys⟩ := parseManaCost_append hclosed ha hb
  exact ⟨c, hc, hamount genericMana, hkeys⟩

end CardArchive
