import CardArchive.Proofs.Search.Splits
import CardArchive.Proofs.Text.Numerals

/-!
# Written comparisons are split again

A comparison is written as a left side, an operator and a right side. If both sides are
free of blanks and of the characters of operators, and neither is empty, the three parts
are found again. Without a left side there is no comparison, and without a right side the
second character of the operator is all that can be taken for one.

## What this module delivers

* `IsSide`: the texts that can be sides of a comparison.
* `parseComparison_written`: the parts of a written comparison.
* `parseComparison_leftless`, `parseComparison_rightless`: comparisons without a side.
-/

set_option autoImplicit false

namespace CardArchive

open Text (isBlank dropBlanks)

/-! ## Sides -/

/-- A text that can be a side of a comparison: free of blanks and of the characters of
operators. The empty text counts as one. -/
def IsSide (s : String) : Prop := ∀ c ∈ s.toList, isLeftChar c = true

instance (s : String) : Decidable (IsSide s) :=
  List.decidableBAll (fun c => isLeftChar c = true) s.toList

/-- A numeral can be a side. -/
theorem isSide_toString (n : Int) : IsSide (toString n) := by
  intro c hc
  have hblank := Text.isBlank_of_mem_toString hc
  have hne : ∀ d : Char, d ∈ ['<', '>', '=', '!'] → (c == d) = false := by
    intro d hd
    rw [beq_eq_false_iff_ne]
    rintro rfl
    rcases Text.mem_toString hc with rfl | hdigit
    · exact absurd hd (by decide)
    · have hnone : ['<', '>', '=', '!'].all (fun d => !d.isDigit) = true := by decide
      have hother := List.all_eq_true.1 hnone _ hd
      rw [hdigit] at hother
      cases hother
  simp [isLeftChar, hblank, hne]

theorem IsSide.isLeftSide {s : String} (h : IsSide s) (hne : s ≠ "") : IsLeftSide s.toList :=
  ⟨fun hs => hne (String.toList_eq_nil_iff.1 hs), h⟩

theorem IsSide.isRightSide {s : String} (h : IsSide s) (hne : s ≠ "") : IsRightSide s.toList :=
  ⟨(h.isLeftSide hne).ne_nil, fun c hc => isBlank_of_isLeftChar (h c hc)⟩

/-! ## Splitting -/

/-- Without a left side nothing is split. -/
theorem splitComparison?_leftless (o : Operator) (rest : List Char) :
    splitComparison? (o.text.toList ++ rest) = none := by
  have hbody : dropBlanks (o.text.toList ++ rest) = o.text.toList ++ rest :=
    dropBlanks_append blanks_nil fun c hc => isBlank_of_mem_text (mem_text_of_head? c hc)
  have hleft : (o.text.toList ++ rest).takeWhile isLeftChar = [] :=
    takeWhile_append_stop (fun _ h => absurd h List.not_mem_nil) fun c hc =>
      isLeftChar_of_mem_text (mem_text_of_head? c hc)
  simp only [splitComparison?, hbody, hleft, List.isEmpty_nil, if_true]

/-- Without a right side only the second character of the operator can be taken for one. -/
theorem operatorAndRight?_rightless (o : Operator) :
    ∀ p ∈ operatorAndRight? o.text.toList, p.2 = ['='] := by
  cases o <;> decide

/-! ## Whole comparisons -/

theorem toList_comparison (l r : String) (o : Operator) :
    (l ++ o.text ++ r).toList = l.toList ++ (o.text.toList ++ r.toList) := by
  rw [String.toList_append, String.toList_append, List.append_assoc]

/-- A comparison is split into the parts that were written. -/
theorem parseComparison_written {l r : String} (o : Operator) (hl : IsSide l) (hr : IsSide r)
    (hlne : l ≠ "") (hrne : r ≠ "") : parseComparison (l ++ o.text ++ r) = .ok (l, o, r) := by
  have hequals : r.toList.head? ≠ some '=' := fun h =>
    absurd (hr '=' (List.mem_of_mem_head? h)) (by decide)
  rw [parseComparison_eq_ok_iff, toList_comparison]
  simpa using splits_written o (hl.isLeftSide hlne) (hr.isRightSide hrne) hequals blanks_nil
    blanks_nil blanks_nil blanks_nil

theorem parseComparison_leftless (o : Operator) (r : String) :
    parseComparison ("" ++ o.text ++ r) =
      .error (.badComparison (Text.quoted ("" ++ o.text ++ r))) := by
  rw [parseComparison, toList_comparison, String.toList_empty, List.nil_append,
    splitComparison?_leftless]

/-- Without a right side a comparison is refused, or its right side is an equals sign. -/
theorem parseComparison_rightless {l : String} (o : Operator) (hl : IsSide l) (hlne : l ≠ "") :
    (∃ e, parseComparison (l ++ o.text ++ "") = .error e) ∨
      ∃ o', parseComparison (l ++ o.text ++ "") = .ok (l, o', "=") := by
  have hsplit : splitComparison? (l.toList ++ o.text.toList) =
      (operatorAndRight? o.text.toList).map fun p => (l.toList, p.1, p.2) :=
    splitComparison?_left (hl.isLeftSide hlne) blanks_nil blanks_nil
      (fun _ hc => isLeftChar_of_mem_text (List.mem_of_mem_head? hc))
      (fun _ hc => isBlank_of_mem_text (List.mem_of_mem_head? hc))
  rw [parseComparison, toList_comparison, String.toList_empty, List.append_nil, hsplit]
  have hright := operatorAndRight?_rightless o
  cases h : operatorAndRight? o.text.toList with
  | none => exact .inl ⟨_, rfl⟩
  | some p =>
    refine .inr ⟨p.1, ?_⟩
    simp [hright p h]

end CardArchive
