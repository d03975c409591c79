import CardArchive.Statement.Limits
import Mathlib.Tactic

/-!
# Statements that are taken

A statement is taken within a frame if nothing of it is beyond a limit of the database. A
statement without a word that is too long meets none whatever the tables hold, so it is
answered by what it says. Of the three frames, the one that lists a page asks the most: a
statement that is taken there is taken in the others.

## What this module delivers

* `Select.overruns_eq_false`: without long words, no pattern is refused.
* `Frame.Takes` and `refusal?_eq_none_iff`: what is taken within a frame.
* `Frame.Takes.of_listing`: the frame that asks the most.
-/

set_option autoImplicit false

namespace CardArchive

/-! ## Words -/

section

variable (db : Relations)

mutual

theorem Expr.overruns_eq_false (scope : Scope) (e : Expr)
    (h : e.demands.any Demand.isLong = false) : e.overruns db scope = false := by
  cases e with
  | like c w negated =>
    rw [Expr.demands, List.any_cons, Bool.or_eq_false_iff] at h
    exact h.1
  | inQuery c q negated => exact Query.overruns_eq_false scope q h
  | compare l o r =>
    rw [Expr.demands, List.any_append, Bool.or_eq_false_iff] at h
    rw [Expr.overruns, Expr.overruns_eq_false scope l h.1, Expr.overruns_eq_false scope r h.2]
    rfl
  | coalesce v f =>
    rw [Expr.demands, List.any_append, Bool.or_eq_false_iff] at h
    rw [Expr.overruns, Expr.overruns_eq_false scope v h.1, Expr.overruns_eq_false scope f h.2]
    rfl
  | allOf parts => exact (overrun_eq_false scope parts h).1
  | anyOf parts => exact (overrun_eq_false scope parts h).2
  | column c | literal l | countDistinct c | inValues c vs negated => rfl

/-- Neither a conjunction nor a disjunction of conditions without long words overruns. -/
theorem overrun_eq_false (scope : Scope) (es : List Expr)
    (h : (allDemands es).any Demand.isLong = false) :
    conjunctionOverruns db scope es = false ∧ disjunctionOverruns db scope es = false := by
  cases es with
  | nil => exact ⟨rfl, rfl⟩
  | cons e es =>
    rw [allDemands, List.any_append, Bool.or_eq_false_iff] at h
    obtain ⟨hall, hany⟩ := overrun_eq_false scope es h.2
    have hfirst := Expr.overruns_eq_false scope e h.1
    constructor
    · rw [conjunctionOverruns, hfirst, hall, Bool.and_false, Bool.or_false]
    · rw [disjunctionOverruns, hfirst, hany, Bool.and_false, Bool.or_false]

theorem Select.overruns_eq_false (scope : Scope) (s : Select) (h : s.hasLongWord = false) :
    s.overruns db scope = false := by
  cases s with
  | mk columns table source joins conditions groupBy having =>
    simp only [Select.hasLongWord, Select.demands, List.any_cons, List.any_append,
      Bool.or_eq_false_iff] at h
    obtain ⟨-, ⟨-, hconditions⟩, -⟩ := h
    rw [Select.overruns, List.any_eq_false]
    intro s _
    rw [(overrun_eq_false s conditions hconditions).1]
    exact Bool.false_ne_true

theorem selectsOverrun_eq_false (scope : Scope) (ss : List Select)
    (h : (selectsDemands ss).any Demand.isLong = false) : selectsOverrun db scope ss = false := by
  cases ss with
  | nil => rfl
  | cons s ss =>
    rw [selectsDemands, List.any_append, Bool.or_eq_false_iff] at h
    rw [selectsOverrun, Select.overruns_eq_false scope s h.1, selectsOverrun_eq_false scope ss h.2]
    rfl

theorem Query.overruns_eq_false (scope : Scope) (q : Query)
    (h : q.demands.any Demand.isLong = false) : q.overruns db scope = false := by
  cases q with
  | select s => exact Select.overruns_eq_false scope s h
  | intersect parts => exact selectsOverrun_eq_false scope parts h

end

end

/-! ## Frames -/

/-- A statement with a text is within all limits in a frame. -/
structure Frame.Takes (f : Frame) (s : Select) (text : String) : Prop where
  /-- The text in the frame is not too long. -/
  short : (f.text text).utf8ByteSize ≤ statementLimit
  /-- No value holds the null character. -/
  plain : ∀ x ∈ s.texts, holdsNull x = false
  /-- No condition is too high. -/
  low : f.depth s ≤ depthLimit
  /-- No selection reads from too many tables. -/
  few : s.readsMore joinLimit = false

theorem Select.readsMore_mono {s : Select} {m n : Nat} (hmn : m ≤ n)
    (h : s.readsMore m = false) : s.readsMore n = false := by
  rw [Select.readsMore, List.any_eq_false] at h ⊢
  intro d hd
  cases d with
  | word w => exact Bool.false_ne_true
  | sources k =>
    have hk := h _ hd
    simp only [Demand.isMore, decide_eq_true_eq] at hk ⊢
    omega

theorem Frame.refusal?_eq_none_iff {f : Frame} {s : Select} {text : String} :
    f.refusal? s text = none ↔ f.Takes s text := by
  unfold Frame.refusal?
  constructor
  · intro h
    split_ifs at h with hlong hnull hsources hdeep hjoins
    refine ⟨Nat.not_lt.1 hlong, fun x hx => ?_, Nat.not_lt.1 hdeep, by simpa using hjoins⟩
    by_contra hzero
    exact hnull (List.any_eq_true.2 ⟨x, hx, by simpa using hzero⟩)
  · rintro ⟨hshort, hplain, hlow, hfew⟩
    have hnull : ¬s.texts.any holdsNull = true := by
      rw [List.any_eq_true]
      rintro ⟨x, hx, hzero⟩
      simp [hplain x hx] at hzero
    have hsources : s.readsMore sourceLimit = false :=
      Select.readsMore_mono (by decide) hfew
    rw [if_neg (Nat.not_lt.2 hshort), if_neg hnull, if_neg (by simp [hsources]),
      if_neg (Nat.not_lt.2 hlow), if_neg (by simp [hfew])]

/-- A statement that is taken where a page is listed is taken in every frame. -/
theorem Frame.Takes.of_listing {s : Select} {text : String} (h : Frame.listing.Takes s text)
    (f : Frame) : f.Takes s text := by
  have hdepth : s.depth 0 ≤ depthLimit := (Nat.le_max_left _ _).trans h.low
  refine ⟨Nat.le_trans ?_ h.short, h.plain, ?_, h.few⟩
  · -- a page has the longest opening and the longest closing
    have hopening : f.opening.utf8ByteSize ≤ Frame.listing.opening.utf8ByteSize := by
      cases f <;> decide +kernel
    have hclosing : f.closing.utf8ByteSize ≤ Frame.listing.closing.utf8ByteSize := by
      cases f <;> decide +kernel
    rw [Frame.text, Frame.text]
    simp only [String.utf8ByteSize_append]
    omega
  · cases f with
    | alone | counting => exact hdepth
    | listing => exact h.low

end CardArchive
