import CardArchive.Search.Comparison
import Mathlib.Data.List.TakeWhile

/-!
# Where a written comparison is split

A comparison is read as blanks, a left side, blanks, an operator, blanks, a right side and
blanks. The left side ends where it has to, since none of its characters can stand in an
operator. The operator is less certain, as the characters of one may as well begin the
right side: of the operators that leave a right side, the longest one is meant. These two
rules fix the three parts, and a text that can not be read in this way is refused.

## What this module delivers

* `IsLeftSide`, `IsRightSide`, `Blanks`: what the parts of a comparison are made of.
* `Leaves`: an operator at the start of a text, and the right side that it leaves.
* `splitComparison?_left`: the left side is taken off, and the operator is left.
* `Splits`: the three parts of a comparison.
* `parseComparison_splits`: these are the parts that are found.
-/

set_option autoImplicit false

namespace CardArchive

open Text (isBlank dropBlanks)

/-! ## The parts of a comparison -/

/-- Any number of blanks. -/
def Blanks (cs : List Char) : Prop := ∀ c ∈ cs, isBlank c = true

instance (cs : List Char) : Decidable (Blanks cs) :=
  List.decidableBAll (fun c => isBlank c = true) cs

/-- A text that can be a left side: free of blanks and of the characters of operators, and
not empty. -/
structure IsLeftSide (l : List Char) : Prop where
  ne_nil : l ≠ []
  chars : ∀ c ∈ l, isLeftChar c = true

instance (l : List Char) : Decidable (IsLeftSide l) :=
  decidable_of_iff (l ≠ [] ∧ l.all isLeftChar = true)
    ⟨fun h => ⟨h.1, List.all_eq_true.1 h.2⟩, fun h => ⟨h.ne_nil, List.all_eq_true.2 h.chars⟩⟩

/-- A text that can be a right side: free of blanks, and not empty. -/
structure IsRightSide (r : List Char) : Prop where
  ne_nil : r ≠ []
  chars : ∀ c ∈ r, isBlank c = false

instance (r : List Char) : Decidable (IsRightSide r) :=
  decidable_of_iff (r ≠ [] ∧ r.all (fun c => !isBlank c) = true)
    ⟨fun h => ⟨h.1, by simpa using h.2⟩, fun h => ⟨h.ne_nil, by simpa using h.chars⟩⟩

/-- A right side with blanks around it. -/
def Surrounded (cs r : List Char) : Prop :=
  IsRightSide r ∧ ∃ before behind, Blanks before ∧ Blanks behind ∧ cs = before ++ (r ++ behind)

/-- An operator at the start of a text that leaves a right side. -/
def Leaves (cs : List Char) (o : Operator) (r : List Char) : Prop :=
  ∃ rest, cs = o.text.toList ++ rest ∧ Surrounded rest r

/-- The three parts of a comparison. Of the operators at the place of this one that leave a
right side, none is longer. -/
def Splits (cs l : List Char) (o : Operator) (r : List Char) : Prop :=
  IsLeftSide l ∧ ∃ before between rest, Blanks before ∧ Blanks between ∧
    cs = before ++ (l ++ (between ++ rest)) ∧ Leaves rest o r ∧
    ∀ o' r', Leaves rest o' r' → o'.text.toList.length ≤ o.text.toList.length

/-! ## Characters -/

theorem isBlank_of_isLeftChar {c : Char} (h : isLeftChar c = true) : isBlank c = false := by
  simp only [isLeftChar, Bool.not_eq_true', Bool.or_eq_false_iff] at h
  exact h.2

theorem isLeftChar_of_isBlank {c : Char} (h : isBlank c = true) : isLeftChar c = false := by
  simp [isLeftChar, h]

/-- No character of an operator can stand in a left side. -/
theorem isLeftChar_of_mem_text {o : Operator} {c : Char} (h : c ∈ o.text.toList) :
    isLeftChar c = false := by
  have hall : ∀ o : Operator, o.text.toList.all (fun c => !isLeftChar c) = true := by
    intro o
    cases o <;> decide
  simpa using List.all_eq_true.1 (hall o) c h

theorem isBlank_of_mem_text {o : Operator} {c : Char} (h : c ∈ o.text.toList) :
    isBlank c = false := by
  have hall : ∀ o : Operator, o.text.toList.all (fun c => !isBlank c) = true := by
    intro o
    cases o <;> decide
  simpa using List.all_eq_true.1 (hall o) c h

/-- A text that starts with an operator starts with one of its characters. -/
theorem mem_text_of_head? {o : Operator} {rest : List Char} :
    ∀ c ∈ (o.text.toList ++ rest).head?, c ∈ o.text.toList := by
  have hne : o.text.toList ≠ [] := by
    cases o <;> decide
  obtain ⟨a, as, ha⟩ := List.exists_cons_of_ne_nil hne
  rw [ha]
  rintro _ ⟨⟩
  exact List.mem_cons_self

/-! ## Runs of characters -/

section

variable {p : Char → Bool} {cs rest : List Char}

theorem drop_length_takeWhile (p : Char → Bool) (cs : List Char) :
    cs.drop (cs.takeWhile p).length = cs.dropWhile p := by
  have hparts : cs.takeWhile p ++ cs.dropWhile p = cs := List.takeWhile_append_dropWhile
  calc cs.drop (cs.takeWhile p).length
      = (cs.takeWhile p ++ cs.dropWhile p).drop (cs.takeWhile p).length := by rw [hparts]
    _ = cs.dropWhile p := List.drop_left

/-- A run ends where the next character does not belong to it. -/
theorem takeWhile_append_stop (hcs : ∀ c ∈ cs, p c = true) (hrest : ∀ c ∈ rest.head?, p c = false) :
    (cs ++ rest).takeWhile p = cs := by
  rw [List.takeWhile_append_of_pos hcs]
  cases rest with
  | nil => exact List.append_nil cs
  | cons c rest => simp [hrest c rfl]

theorem dropWhile_append_stop (hcs : ∀ c ∈ cs, p c = true) (hrest : ∀ c ∈ rest.head?, p c = false) :
    (cs ++ rest).dropWhile p = rest := by
  rw [← drop_length_takeWhile, takeWhile_append_stop hcs hrest, List.drop_left]

end

theorem blanks_nil : Blanks [] := fun _ h => absurd h List.not_mem_nil

theorem blanks_takeWhile (cs : List Char) : Blanks (cs.takeWhile isBlank) :=
  fun _ h => List.mem_takeWhile_imp h

theorem dropBlanks_append {before rest : List Char} (h : Blanks before)
    (hrest : ∀ c ∈ rest.head?, isBlank c = false) : dropBlanks (before ++ rest) = rest :=
  dropWhile_append_stop h hrest

/-- What is blank does not start a side. -/
theorem head?_of_blanks {p : Char → Bool} {cs rest : List Char} (h : Blanks cs)
    (hp : ∀ c, isBlank c = true → p c = false) (hrest : ∀ c ∈ rest.head?, p c = false) :
    ∀ c ∈ (cs ++ rest).head?, p c = false := by
  cases cs with
  | nil => exact hrest
  | cons b cs =>
    rintro c ⟨⟩
    exact hp b (h b List.mem_cons_self)

/-! ## The right side -/

/-- The right side is found behind its blanks, if nothing but blanks follows it. -/
theorem rightSide?_eq_some_iff {cs r : List Char} : rightSide? cs = some r ↔ Surrounded cs r := by
  have hrest := drop_length_takeWhile (fun c => !isBlank c) (dropBlanks cs)
  constructor
  · intro h
    simp only [rightSide?, hrest] at h
    split at h
    · cases h
    · rename_i hside
      split at h
      · rename_i hbehind
        cases h
        refine ⟨⟨by simpa using hside, fun c hc => ?_⟩, cs.takeWhile isBlank,
          (dropBlanks cs).dropWhile fun c => !isBlank c, blanks_takeWhile cs, ?_, ?_⟩
        · simpa using List.mem_takeWhile_imp hc
        · rw [List.isEmpty_iff] at hbehind
          exact List.dropWhile_eq_nil_iff.1 hbehind
        · rw [List.takeWhile_append_dropWhile]
          exact List.takeWhile_append_dropWhile.symm
      · cases h
  · rintro ⟨hr, before, behind, hbefore, hbehind, rfl⟩
    have hbody : dropBlanks (before ++ (r ++ behind)) = r ++ behind := by
      obtain ⟨c, r, rfl⟩ := List.exists_cons_of_ne_nil hr.ne_nil
      refine dropBlanks_append hbefore ?_
      rintro _ ⟨⟩
      exact hr.chars c List.mem_cons_self
    have hchars : ∀ c ∈ r, (!isBlank c) = true := fun c hc => by simp [hr.chars c hc]
    have hstop : ∀ c ∈ behind.head?, (!isBlank c) = false := fun c hc => by
      simp [hbehind c (List.mem_of_mem_head? hc)]
    have hside : r.isEmpty = false := by simpa using hr.ne_nil
    have hend : (dropBlanks behind).isEmpty = true := by
      rw [List.isEmpty_iff]
      exact List.dropWhile_eq_nil_iff.2 hbehind
    simp only [rightSide?, hbody, takeWhile_append_stop hchars hstop, List.drop_left, hside, hend,
      Bool.false_eq_true, if_false, if_true]

/-! ## The operator -/

theorem after?_eq_some_iff {start cs rest : List Char} :
    after? start cs = some rest ↔ cs = start ++ rest := by
  rw [after?]
  constructor
  · intro h
    split at h
    · rename_i hstart
      cases h
      exact (List.prefix_iff_eq_append.1 (List.isPrefixOf_iff_prefix.1 hstart)).symm
    · cases h
  · rintro rfl
    rw [if_pos (List.isPrefixOf_iff_prefix.2 (List.prefix_append start rest)), List.drop_left]

/-- What one operator that is tried comes to. -/
theorem tried_eq_some_iff {cs : List Char} {o o' : Operator} {r : List Char} :
    (do
      let rest ← after? o.text.toList cs
      let side ← rightSide? rest
      pure (o, side) : Option (Operator × List Char)) = some (o', r) ↔ o = o' ∧ Leaves cs o r := by
  simp only [Option.bind_eq_bind, Option.bind_eq_some_iff, after?_eq_some_iff,
    rightSide?_eq_some_iff, Option.pure_def, Option.some.injEq, Prod.mk.injEq, Leaves]
  constructor
  · rintro ⟨rest, hrest, side, hside, rfl, rfl⟩
    exact ⟨rfl, rest, hrest, hside⟩
  · rintro ⟨rfl, rest, hrest, hside⟩
    exact ⟨rest, hrest, r, hside, rfl, rfl⟩

/-- Every operator is tried, and none before a longer one. -/
theorem mem_operatorsTried (o : Operator) : o ∈ operatorsTried := by
  cases o <;> decide

theorem pairwise_operatorsTried : operatorsTried.Pairwise fun o o' =>
    o'.text.toList.length ≤ o.text.toList.length := by decide

/-- Two operators of one length at the start of a text are the same. -/
theorem operator_unique {o o' : Operator} {rest rest' : List Char}
    (h : o.text.toList ++ rest = o'.text.toList ++ rest')
    (hlength : o.text.toList.length = o'.text.toList.length) : o = o' := by
  have htext := (List.append_inj h hlength).1
  cases o <;> cases o' <;> first | rfl | exact absurd htext (by decide)

/-- The operator that is found is the longest one that leaves a right side. -/
theorem operatorAndRight?_eq_some_iff {cs : List Char} {o : Operator} {r : List Char} :
    operatorAndRight? cs = some (o, r) ↔ Leaves cs o r ∧
      ∀ o' r', Leaves cs o' r' → o'.text.toList.length ≤ o.text.toList.length := by
  -- what is found was tried before every other operator that leaves a right side
  have hlongest : ∀ {o r}, operatorAndRight? cs = some (o, r) → Leaves cs o r ∧
      ∀ o' r', Leaves cs o' r' → o'.text.toList.length ≤ o.text.toList.length := by
    intro o r h
    obtain ⟨tried, found, later, hsplit, hfound, hnone⟩ := List.findSome?_eq_some_iff.1 h
    obtain ⟨rfl, hleaves⟩ := tried_eq_some_iff.1 hfound
    refine ⟨hleaves, fun o' r' h' => ?_⟩
    have hmem := mem_operatorsTried o'
    have hpairs := pairwise_operatorsTried
    rw [hsplit] at hmem hpairs
    rcases List.mem_append.1 hmem with hbefore | hbehind
    · have hother := hnone o' hbefore
      rw [tried_eq_some_iff.2 ⟨rfl, h'⟩] at hother
      cases hother
    · rcases List.mem_cons.1 hbehind with rfl | hlater
      · exact Nat.le_refl _
      · exact (List.pairwise_cons.1 (List.pairwise_append.1 hpairs).2.1).1 o' hlater
  constructor
  · exact hlongest
  · rintro ⟨hleaves, hmax⟩
    cases hfound : operatorAndRight? cs with
    | none =>
      have hother := List.findSome?_eq_none_iff.1 hfound o (mem_operatorsTried o)
      rw [tried_eq_some_iff.2 ⟨rfl, hleaves⟩] at hother
      cases hother
    | some found =>
      obtain ⟨o', r'⟩ := found
      obtain ⟨hleaves', hmax'⟩ := hlongest hfound
      obtain ⟨rest, hrest, hright⟩ := hleaves
      obtain ⟨rest', hrest', hright'⟩ := hleaves'
      have hlength := Nat.le_antisymm (hmax' o r ⟨rest, hrest, hright⟩)
        (hmax o' r' ⟨rest', hrest', hright'⟩)
      obtain rfl := operator_unique (hrest.symm.trans hrest') hlength
      obtain rfl := List.append_cancel_left (hrest.symm.trans hrest')
      rw [← rightSide?_eq_some_iff] at hright hright'
      rw [hright] at hright'
      rw [Option.some.inj hright']

/-! ## The whole comparison -/

/-- The left side ends where it can not go on, and what is behind its blanks is left. -/
theorem splitComparison?_left {before l between rest : List Char} (hl : IsLeftSide l)
    (hbefore : Blanks before) (hbetween : Blanks between)
    (hleft : ∀ c ∈ rest.head?, isLeftChar c = false)
    (hblank : ∀ c ∈ rest.head?, isBlank c = false) :
    splitComparison? (before ++ (l ++ (between ++ rest))) =
      (operatorAndRight? rest).map fun p => (l, p.1, p.2) := by
  have hbody : dropBlanks (before ++ (l ++ (between ++ rest))) = l ++ (between ++ rest) := by
    obtain ⟨c, l, rfl⟩ := List.exists_cons_of_ne_nil hl.ne_nil
    refine dropBlanks_append hbefore ?_
    rintro _ ⟨⟩
    exact isBlank_of_isLeftChar (hl.chars c List.mem_cons_self)
  have htaken : (l ++ (between ++ rest)).takeWhile isLeftChar = l :=
    takeWhile_append_stop hl.chars
      (head?_of_blanks hbetween (fun _ => isLeftChar_of_isBlank) hleft)
  have hbehind : dropBlanks (between ++ rest) = rest := dropBlanks_append hbetween hblank
  have hgiven : l.isEmpty = false := by simpa using hl.ne_nil
  simp only [splitComparison?, hbody, htaken, hgiven, List.drop_left, hbehind, Bool.false_eq_true,
    if_false]

/-- A comparison is split into its parts, and only into these. -/
theorem splitComparison?_eq_some_iff {cs l : List Char} {o : Operator} {r : List Char} :
    splitComparison? cs = some (l, o, r) ↔ Splits cs l o r := by
  have hrest := drop_length_takeWhile isLeftChar (dropBlanks cs)
  constructor
  · intro h
    simp only [splitComparison?, hrest] at h
    split at h
    · cases h
    · rename_i hleft
      obtain ⟨found, hfound, hparts⟩ := Option.map_eq_some_iff.1 h
      cases hparts
      obtain ⟨hleaves, hmax⟩ := operatorAndRight?_eq_some_iff.1 hfound
      refine ⟨⟨by simpa using hleft, fun c hc => List.mem_takeWhile_imp hc⟩, cs.takeWhile isBlank,
        ((dropBlanks cs).dropWhile isLeftChar).takeWhile isBlank, _, blanks_takeWhile cs,
        blanks_takeWhile _, ?_, hleaves, hmax⟩
      -- three runs of characters, and the text behind them
      have hbehind : ((dropBlanks cs).dropWhile isLeftChar).takeWhile isBlank ++
          dropBlanks ((dropBlanks cs).dropWhile isLeftChar) =
            (dropBlanks cs).dropWhile isLeftChar := List.takeWhile_append_dropWhile
      rw [hbehind, List.takeWhile_append_dropWhile]
      exact List.takeWhile_append_dropWhile.symm
  · rintro ⟨hl, before, between, rest, hbefore, hbetween, rfl, hleaves, hmax⟩
    have hhead : ∀ c ∈ rest.head?, c ∈ o.text.toList := by
      obtain ⟨behind, rfl, -⟩ := hleaves
      exact mem_text_of_head?
    rw [splitComparison?_left hl hbefore hbetween
      (fun c hc => isLeftChar_of_mem_text (hhead c hc))
      (fun c hc => isBlank_of_mem_text (hhead c hc)),
      operatorAndRight?_eq_some_iff.2 ⟨hleaves, hmax⟩]
    rfl

/-- A text that is not split is refused as a whole. -/
theorem parseComparison_eq_ok_iff {e l r : String} {o : Operator} :
    parseComparison e = .ok (l, o, r) ↔ Splits e.toList l.toList o r.toList := by
  rw [← splitComparison?_eq_some_iff, parseComparison]
  cases h : splitComparison? e.toList with
  | none => simp
  | some parts =>
    obtain ⟨l', o', r'⟩ := parts
    simp only [Except.ok.injEq, Prod.mk.injEq, Option.some.injEq]
    constructor
    · rintro ⟨rfl, rfl, rfl⟩
      simp
    · rintro ⟨rfl, rfl, rfl⟩
      simp

/-- A longer operator in the place of another one goes on with an equals sign. -/
theorem length_text_le_or {o o' : Operator} {rest rest' : List Char}
    (h : o.text.toList ++ rest = o'.text.toList ++ rest') :
    o'.text.toList.length ≤ o.text.toList.length ∨ rest.head? = some '=' := by
  cases o <;> cases o' <;> simp_all [Operator.text]

/-- A comparison whose right side does not start with an equals sign has the parts that were
written. -/
theorem splits_written {before l between behind r after : List Char} (o : Operator)
    (hl : IsLeftSide l) (hr : IsRightSide r) (hequals : r.head? ≠ some '=')
    (hbefore : Blanks before) (hbetween : Blanks between) (hbehind : Blanks behind)
    (hafter : Blanks after) :
    Splits (before ++ (l ++ (between ++ (o.text.toList ++ (behind ++ (r ++ after)))))) l o r := by
  refine ⟨hl, before, between, _, hbefore, hbetween, rfl,
    ⟨_, rfl, hr, behind, after, hbehind, hafter, rfl⟩, ?_⟩
  rintro o' r' ⟨rest', hrest', -⟩
  refine (length_text_le_or hrest').resolve_right fun hhead => ?_
  obtain ⟨c, r, rfl⟩ := List.exists_cons_of_ne_nil hr.ne_nil
  cases behind with
  | nil => exact hequals hhead
  | cons b behind =>
    obtain rfl : b = '=' := by simpa using hhead
    exact absurd (hbehind '=' List.mem_cons_self) (by decide)

/-- **The parts of a comparison.** What is found in a text are three parts into which it
splits: a left side, the longest operator in its place that leaves a right side, and that
right side, each with blanks around it. Every text without such parts is refused, and the
refusal quotes it. If the right side does not start with an equals sign, then any parts that
are written, with any blanks around them, are found again. -/
theorem parseComparison_splits :
    (∀ e l o r, parseComparison e = .ok (l, o, r) ↔ Splits e.toList l.toList o r.toList) ∧
    (∀ e, (¬∃ l o r, Splits e.toList l o r) →
      parseComparison e = .error (.badComparison (Text.quoted e))) ∧
    ∀ before l between o behind r after,
      IsLeftSide l.toList → IsRightSide r.toList → r.toList.head? ≠ some '=' →
      Blanks before.toList → Blanks between.toList → Blanks behind.toList → Blanks after.toList →
      parseComparison (before ++ l ++ between ++ Operator.text o ++ behind ++ r ++ after) =
        .ok (l, o, r) := by
  refine ⟨fun e l o r => parseComparison_eq_ok_iff, ?_, ?_⟩
  · intro e hnone
    cases h : splitComparison? e.toList with
    | none => rw [parseComparison, h]
    | some parts => exact absurd ⟨_, _, _, splitComparison?_eq_some_iff.1 h⟩ hnone
  · intro before l between o behind r after hl hr hequals hbefore hbetween hbehind hafter
    rw [parseComparison_eq_ok_iff]
    simp only [String.toList_append, List.append_assoc]
    exact splits_written o hl hr hequals hbefore hbetween hbehind hafter

/-- A right side may begin like an operator. Where there is none behind an operator of two
characters, the second of them is taken for it, and two right sides are none. -/
theorem parseComparison_power :
    IsLeftSide "power".toList ∧ IsRightSide "!3".toList ∧ "!3".toList.head? ≠ some '=' ∧
      Blanks " \t".toList ∧ Blanks "".toList ∧
      parseComparison
        (" \t" ++ "power" ++ "" ++ Operator.text .greaterEqual ++ " \t" ++ "!3" ++ "") =
          .ok ("power", .greaterEqual, "!3") ∧
      Splits "power>=".toList "power".toList .greater "=".toList ∧
      (¬∃ l o r, Splits "power > 3 4".toList l o r) ∧
      parseComparison "power > 3 4" = .error (.badComparison "'power > 3 4'") := by
  obtain ⟨hsplits, hrefused, hwritten⟩ := parseComparison_splits
  have hl : IsLeftSide "power".toList := by decide
  have hr : IsRightSide "!3".toList := by decide
  have hequals : "!3".toList.head? ≠ some '=' := by decide
  have hblanks : Blanks " \t".toList := by decide
  have hnone : Blanks "".toList := by decide
  have hunsplit : ¬∃ l o r, Splits "power > 3 4".toList l o r := by
    rintro ⟨l, o, r, h⟩
    rw [← splitComparison?_eq_some_iff] at h
    have hsplit : splitComparison? "power > 3 4".toList = none := by decide
    rw [hsplit] at h
    cases h
  refine ⟨hl, hr, hequals, hblanks, hnone, ?_, ?_, hunsplit, ?_⟩
  · exact hwritten _ _ _ .greaterEqual _ _ _ hl hr hequals hblanks hnone hblanks hnone
  · exact (hsplits "power>=" "power" .greater "=").1 (by decide)
  · exact hrefused _ hunsplit

end CardArchive
