import CardArchive.Statement.Cell
import Mathlib.Data.List.TakeWhile
import Mathlib.Tactic

/-!
# Texts that fit a pattern

A pattern is a text in which two characters do not stand for themselves: one for any text
at all, and one for any single character. A word is looked for in a text by the pattern
that has any text on both sides of it, so the word occurs where a part of the text fits the
word taken as a pattern itself. Of a text with a null character, only what stands before it
is looked at. Only a word without these two characters is thereby looked for literally.

## What this module delivers

* `FitsPattern` and `fits_iff`: the texts that fit, as the matcher decides it.
* `fitsPattern_append`: a text that fits two patterns in turn is two such texts in turn.
* `Occurs` and `holdsPart_text`: what a test for a word says.
* `occurs_literally_iff`: the words that are looked for literally.
-/

set_option autoImplicit false

namespace CardArchive

/-! ## Patterns -/

/-- A text fits a pattern: `%` stands for any text, `_` for any one character, and every
other character for itself. -/
inductive FitsPattern : List Char → List Char → Prop
  | done : FitsPattern [] []
  | anyText (part : List Char) {ps cs : List Char} (h : FitsPattern ps cs) :
      FitsPattern ('%' :: ps) (part ++ cs)
  | anyOne (c : Char) {ps cs : List Char} (h : FitsPattern ps cs) :
      FitsPattern ('_' :: ps) (c :: cs)
  | same {c : Char} (hc : c ≠ '%') {ps cs : List Char} (h : FitsPattern ps cs) :
      FitsPattern (c :: ps) (c :: cs)

/-- A text fits a pattern for any text and more if what is left after some beginning fits
the rest. -/
theorem fitsPattern_anyText {ps cs : List Char} :
    FitsPattern ('%' :: ps) cs ↔ ∃ part rest, cs = part ++ rest ∧ FitsPattern ps rest := by
  constructor
  · intro h
    cases h with
    | anyText part h => exact ⟨part, _, rfl, h⟩
    | same hc h => exact absurd rfl hc
  · rintro ⟨part, rest, rfl, h⟩
    exact .anyText part h

/-- A text fits a pattern that starts with another character if its own first character
is met by it and what is left fits the rest. -/
theorem fitsPattern_cons {p : Char} (hp : p ≠ '%') {ps cs : List Char} :
    FitsPattern (p :: ps) cs ↔
      ∃ c rest, cs = c :: rest ∧ (p = '_' ∨ p = c) ∧ FitsPattern ps rest := by
  constructor
  · intro h
    cases h with
    | anyText part h => exact absurd rfl hp
    | anyOne c h => exact ⟨c, _, rfl, .inl rfl, h⟩
    | same hc h => exact ⟨p, _, rfl, .inr rfl, h⟩
  · rintro ⟨c, rest, rfl, rfl | rfl, h⟩
    · exact .anyOne c h
    · exact .same hp h

/-- The matcher tells whether a text fits. -/
theorem fits_iff {ps cs : List Char} : fits ps cs = true ↔ FitsPattern ps cs := by
  induction ps generalizing cs with
  | nil =>
    rw [fits, List.isEmpty_iff]
    constructor
    · rintro rfl
      exact .done
    · intro h
      cases h
      rfl
  | cons p ps ih =>
    by_cases hp : p = '%'
    · -- the matcher tries what is left after every beginning
      subst hp
      simp only [fits, if_true, List.any_eq_true, mem_suffixes, ih, fitsPattern_anyText]
      constructor
      · rintro ⟨rest, ⟨part, hcs⟩, h⟩
        exact ⟨part, rest, hcs.symm, h⟩
      · rintro ⟨part, rest, hcs, h⟩
        exact ⟨rest, ⟨part, hcs.symm⟩, h⟩
    · rw [fitsPattern_cons hp]
      cases cs with
      | nil => simp [fits, hp]
      | cons c cs =>
        simp only [fits, if_neg hp, Bool.and_eq_true, Bool.or_eq_true, beq_iff_eq, ih]
        constructor
        · rintro ⟨hc, h⟩
          exact ⟨c, cs, rfl, hc, h⟩
        · rintro ⟨c', cs', heq, hc, h⟩
          cases heq
          exact ⟨hc, h⟩

/-- Every text fits the pattern for any text. -/
theorem fitsPattern_all (cs : List Char) : FitsPattern ['%'] cs := by
  have h := FitsPattern.anyText cs .done
  rwa [List.append_nil] at h

/-- A text fits two patterns in turn exactly if it is two texts in turn that fit them. -/
theorem fitsPattern_append {ps qs cs : List Char} :
    FitsPattern (ps ++ qs) cs ↔
      ∃ as bs, cs = as ++ bs ∧ FitsPattern ps as ∧ FitsPattern qs bs := by
  constructor
  · -- on the first pattern, each character of which takes its part off the text
    intro h
    induction ps generalizing cs with
    | nil => exact ⟨[], cs, rfl, .done, h⟩
    | cons p ps ih =>
      rw [List.cons_append] at h
      cases h with
      | anyText part h =>
        obtain ⟨as, bs, rfl, has, hbs⟩ := ih h
        exact ⟨part ++ as, bs, (List.append_assoc part as bs).symm, .anyText part has, hbs⟩
      | anyOne c h =>
        obtain ⟨as, bs, rfl, has, hbs⟩ := ih h
        exact ⟨c :: as, bs, rfl, .anyOne c has, hbs⟩
      | same hc h =>
        obtain ⟨as, bs, rfl, has, hbs⟩ := ih h
        exact ⟨p :: as, bs, rfl, .same hc has, hbs⟩
  · rintro ⟨as, bs, rfl, has, hbs⟩
    induction has with
    | done => exact hbs
    | anyText part _ ih =>
      rw [List.append_assoc]
      exact .anyText part ih
    | anyOne c _ ih => exact .anyOne c ih
    | same hc _ ih => exact .same hc ih

/-! ## Words in texts -/

/-- A word occurs in a text if some part of what is looked at of the text fits the word,
taken as a pattern. -/
def Occurs (w x : String) : Prop :=
  ∃ part, part <:+: beforeNull x.toList ∧ FitsPattern w.toList part

/-- A text fits a word with any text on both sides exactly if the word occurs in it. -/
theorem fits_part_iff {w x : String} :
    fits ('%' :: w.toList ++ ['%']) (beforeNull x.toList) = true ↔ Occurs w x := by
  rw [fits_iff, List.cons_append, fitsPattern_anyText]
  constructor
  · rintro ⟨before, rest, hx, h⟩
    obtain ⟨part, after, rfl, hpart, -⟩ := fitsPattern_append.1 h
    exact ⟨part, ⟨before, after, by rw [hx, List.append_assoc]⟩, hpart⟩
  · rintro ⟨part, ⟨before, after, hx⟩, hpart⟩
    refine ⟨before, part ++ after, by rw [← hx, List.append_assoc], ?_⟩
    exact fitsPattern_append.2 ⟨part, after, rfl, hpart, fitsPattern_all after⟩

instance (w x : String) : Decidable (Occurs w x) := decidable_of_iff _ fits_part_iff

example : Occurs "A_m" "Asmira" ∧ ¬Occurs "a_m" "Asmira" := by decide

theorem holdsPart_text (w x : String) : holdsPart w (.text x) = some (decide (Occurs w x)) := by
  rw [holdsPart, Option.some.injEq, Bool.eq_iff_iff, decide_eq_true_iff]
  exact fits_part_iff

/-- Whether a character of a pattern stands for itself. -/
def IsLiteral (c : Char) : Prop := c ≠ '%' ∧ c ≠ '_'

instance (c : Char) : Decidable (IsLiteral c) := inferInstanceAs (Decidable (_ ∧ _))

/-- Only the text itself fits a pattern in which every character stands for itself. -/
theorem fitsPattern_of_isLiteral {ps cs : List Char} (h : ∀ c ∈ ps, IsLiteral c) :
    FitsPattern ps cs ↔ cs = ps := by
  constructor
  · intro hfits
    induction hfits with
    | done => rfl
    | anyText part _ _ => exact absurd rfl (h '%' List.mem_cons_self).1
    | anyOne c _ _ => exact absurd rfl (h '_' List.mem_cons_self).2
    | same hc _ ih => rw [ih fun d hd => h d (List.mem_cons_of_mem _ hd)]
  · rintro rfl
    induction cs with
    | nil => exact .done
    | cons c cs ih =>
      refine .same (h c List.mem_cons_self).1 ?_
      exact ih fun d hd => h d (List.mem_cons_of_mem _ hd)

/-- A character with which a character of a pattern is met, and which is literal. -/
def filled (c : Char) : Char := if IsLiteral c then c else 'x'

theorem isLiteral_filled (c : Char) : IsLiteral (filled c) := by
  unfold filled
  split
  · assumption
  · decide

theorem filled_ne_null {c : Char} (h : c ≠ '\x00') : filled c ≠ '\x00' := by
  unfold filled
  split
  · exact h
  · decide

theorem fitsPattern_filled (ps : List Char) : FitsPattern ps (ps.map filled) := by
  induction ps with
  | nil => exact .done
  | cons p ps ih =>
    by_cases hliteral : IsLiteral p
    · rw [List.map_cons, filled, if_pos hliteral]
      exact .same hliteral.1 ih
    · rw [List.map_cons, filled, if_neg hliteral]
      by_cases hp : p = '%'
      · subst hp
        exact .anyText ['x'] ih
      · have hone : p = '_' := by
          by_contra hother
          exact hliteral ⟨hp, hother⟩
        subst hone
        exact .anyOne 'x' ih

/-- A text without a null character is looked at as a whole. -/
theorem beforeNull_of_not_mem {cs : List Char} (h : '\x00' ∉ cs) : beforeNull cs = cs :=
  List.takeWhile_eq_self_iff.2 fun _ hc => bne_iff_ne.2 fun heq => h (heq ▸ hc)

/-- A word without a null character is looked for literally in every text exactly if each of
its characters stands for itself. -/
theorem occurs_literally_iff {w : String} (hw : '\x00' ∉ w.toList) :
    (∀ x, Occurs w x ↔ w.toList <:+: beforeNull x.toList) ↔ ∀ c ∈ w.toList, IsLiteral c := by
  constructor
  · intro h
    -- a text of the same length that fits the word would have to be the word
    have hnull : '\x00' ∉ w.toList.map filled := fun hmem => by
      obtain ⟨c, hc, heq⟩ := List.mem_map.1 hmem
      exact filled_ne_null (fun hzero => hw (hzero ▸ hc)) heq
    have hseen : beforeNull (String.ofList (w.toList.map filled)).toList = w.toList.map filled := by
      rw [String.toList_ofList, beforeNull_of_not_mem hnull]
    have hoccurs : Occurs w (String.ofList (w.toList.map filled)) :=
      ⟨w.toList.map filled, by rw [hseen], fitsPattern_filled _⟩
    have hpart := (h _).1 hoccurs
    rw [hseen] at hpart
    have hsame := hpart.eq_of_length (by rw [List.length_map])
    rw [hsame]
    exact List.forall_mem_map.2 fun c _ => isLiteral_filled c
  · intro h x
    simp only [Occurs, fitsPattern_of_isLiteral h, exists_eq_right]

/-- So these are the words without a percent sign and without an underscore. -/
theorem occurs_literally_iff_not_mem {w : String} (hw : '\x00' ∉ w.toList) :
    (∀ x, Occurs w x ↔ w.toList <:+: beforeNull x.toList) ↔
      '%' ∉ w.toList ∧ '_' ∉ w.toList := by
  rw [occurs_literally_iff hw]
  constructor
  · intro hliteral
    exact ⟨fun hmem => (hliteral _ hmem).1 rfl, fun hmem => (hliteral _ hmem).2 rfl⟩
  · rintro ⟨hpercent, hunderscore⟩ ch hch
    exact ⟨fun heq => hpercent (heq ▸ hch), fun heq => hunderscore (heq ▸ hch)⟩

end CardArchive
