import CardArchive.Json.Reader
import CardArchive.Json.Writer
import Mathlib.Tactic

/-!
# Texts are read back

A text is written between quotation marks with its unusual characters escaped, those
beyond `U+FFFF` as two units. Reading goes through the escapes one after the other and
then joins the units, so it gives the text again.

## What this module delivers

* `units`: the units of sixteen bits that write a character.
* `textBody_escapeChar`: one written character is read as its units.
* `joinHalves_units`: units are joined to the characters that they write.
* `readString_escape`: a written text is read back.
-/

set_option autoImplicit false

namespace CardArchive.Json

/-! ## Escapes -/

theorem hexValue?_digitChar {d : Nat} (h : d < 16) : hexValue? (Nat.digitChar d) = some d := by
  have hall : ∀ d < 16, hexValue? (Nat.digitChar d) = some d := by decide
  exact hall d h

/-- Four digits in base sixteen write a unit. -/
theorem hexDigits_four (n : Nat) (h : n < 0x10000) : ∃ a b c d,
    Text.hexDigits 4 n = [a, b, c, d] ∧ hex4? a b c d = some n := by
  refine ⟨_, _, _, _, rfl, ?_⟩
  rw [hex4?, hexValue?_digitChar (Nat.mod_lt _ (by decide)),
    hexValue?_digitChar (Nat.mod_lt _ (by decide)), hexValue?_digitChar (Nat.mod_lt _ (by decide)),
    hexValue?_digitChar (Nat.mod_lt _ (by decide))]
  simp only [Option.bind_eq_bind, Option.bind_some, Option.pure_def, Option.some.injEq]
  omega

/-- The units of sixteen bits that write a character. -/
def units (c : Char) : List Nat :=
  if c.toNat < 0x10000 then [c.toNat]
  else [0xD800 + (c.toNat - 0x10000) / 0x400, 0xDC00 + (c.toNat - 0x10000) % 0x400]

section

variable {start p : Nat} {cs : List Char} {codes : List Nat}

/-- An escaped unit is read, as long as the text goes on. -/
theorem textBody_escapeUnit {n : Nat} (h : n < 0x10000) (hcs : cs ≠ []) :
    textBody start (escapeUnit n ++ cs) p codes = textBody start cs (p + 6) (n :: codes) := by
  obtain ⟨a, b, c, d, hdigits, hread⟩ := hexDigits_four n h
  obtain ⟨e, rest, rfl⟩ := List.exists_cons_of_ne_nil hcs
  rw [escapeUnit, hdigits]
  simp only [List.cons_append, List.nil_append, textBody, hread]

/-- A character that stands for itself is read. -/
theorem textBody_plain {c : Char} (hquote : c ≠ '"') (hslash : c ≠ '\\') (h : 32 ≤ c.toNat) :
    textBody start (c :: cs) p codes = textBody start cs (p + 1) (c.toNat :: codes) := by
  have hlow : ¬c.toNat < 32 := Nat.not_lt.2 h
  rw [textBody.eq_def]
  split <;> simp_all

theorem toNat_lt_of_char (c : Char) : c.toNat < 0x110000 := by
  have hvalid := c.valid
  rcases hvalid with h | ⟨-, h⟩
  · exact Nat.lt_trans h (by decide)
  · exact h

/-- One written character is read as its units, as long as the text goes on. -/
theorem textBody_escapeChar (c : Char) (hcs : cs ≠ []) : ∃ q,
    textBody start (escapeChar c ++ cs) p codes =
      textBody start cs q ((units c).reverse ++ codes) := by
  -- the characters with an escape of one letter come first
  by_cases hmark : c = '"' ∨ c = '\\'
  · refine ⟨p + 2, ?_⟩
    rcases hmark with rfl | rfl <;> rfl
  · by_cases hshort : c = '\n' ∨ c = '\r' ∨ c = '\t' ∨ c = '\x08' ∨ c = '\x0c'
    · refine ⟨p + 2, ?_⟩
      rcases hshort with rfl | rfl | rfl | rfl | rfl <;> rfl
    · have hmarks := not_or.1 hmark
      simp only [not_or] at hshort
      obtain ⟨hn, hr, ht, hb, hf⟩ := hshort
      rw [escapeChar, if_neg hmark, if_neg hn, if_neg hr, if_neg ht, if_neg hb, if_neg hf]
      by_cases hplain : 32 ≤ c.toNat ∧ c.toNat < 127
      · have hunits : units c = [c.toNat] := by
          rw [units, if_pos (by omega)]
        rw [if_pos hplain, hunits]
        exact ⟨p + 1, textBody_plain hmarks.1 hmarks.2 hplain.1⟩
      · rw [if_neg hplain]
        by_cases hunit : c.toNat < 0x10000
        · have hunits : units c = [c.toNat] := by
            rw [units, if_pos hunit]
          rw [if_pos hunit, hunits]
          exact ⟨p + 6, textBody_escapeUnit hunit hcs⟩
        · have hbound := toNat_lt_of_char c
          have hunits : units c = [0xD800 + (c.toNat - 0x10000) / 0x400,
              0xDC00 + (c.toNat - 0x10000) % 0x400] := by
            rw [units, if_neg hunit]
          have hrest : escapeUnit (0xDC00 + (c.toNat - 0x10000) % 0x400) ++ cs ≠ [] := by
            rw [escapeUnit]
            exact List.cons_ne_nil _ _
          rw [if_neg hunit, hunits]
          refine ⟨p + 6 + 6, ?_⟩
          simp only [List.append_assoc]
          rw [textBody_escapeUnit (by omega) hrest, textBody_escapeUnit (by omega) hcs]
          rfl

/-- The written characters of a text are read as their units. -/
theorem textBody_escape (s : List Char) : ∀ (p : Nat) (codes : List Nat), ∃ q,
    textBody start (s.flatMap escapeChar ++ '"' :: cs) p codes =
      .ok (codes.reverse ++ s.flatMap units, ⟨cs, q⟩) := by
  induction s with
  | nil =>
    intro p codes
    refine ⟨p + 1, ?_⟩
    rw [List.flatMap_nil, List.flatMap_nil, List.append_nil]
    rfl
  | cons c s ih =>
    intro p codes
    have hmore : s.flatMap escapeChar ++ '"' :: cs ≠ [] := by simp
    obtain ⟨q, hq⟩ : ∃ q, textBody start
        (escapeChar c ++ (s.flatMap escapeChar ++ '"' :: cs)) p codes =
          textBody start (s.flatMap escapeChar ++ '"' :: cs) q ((units c).reverse ++ codes) :=
      textBody_escapeChar c hmore
    obtain ⟨r, hr⟩ := ih q ((units c).reverse ++ codes)
    refine ⟨r, ?_⟩
    rw [List.flatMap_cons, List.append_assoc, hq, hr, List.flatMap_cons]
    simp

end

/-! ## Units -/

/-- No character is half of another one. -/
theorem not_half_of_char (c : Char) : (isHighHalf c.toNat || isLowHalf c.toNat) = false := by
  have hvalid : c.toNat < 0xD800 ∨ 0xDFFF < c.toNat ∧ c.toNat < 0x110000 := c.valid
  simp only [isHighHalf, isLowHalf, Bool.or_eq_false_iff, Bool.and_eq_false_iff,
    decide_eq_false_iff_not]
  omega

theorem joinHalves_cons {n : Nat} (h : isHighHalf n = false) (ns : List Nat) :
    joinHalves (n :: ns) = charOfCode n :: joinHalves ns := by
  cases ns with
  | nil => rfl
  | cons m ns => rw [joinHalves, h, Bool.false_and, if_neg Bool.false_ne_true]

/-- The units of a character are joined to it. -/
theorem joinHalves_units_append (c : Char) (ns : List Nat) :
    joinHalves (units c ++ ns) = c :: joinHalves ns := by
  by_cases hunit : c.toNat < 0x10000
  · have hhalf := not_half_of_char c
    have hcode : charOfCode c.toNat = c := by
      rw [charOfCode, hhalf, if_neg Bool.false_ne_true, Char.ofNat_toNat]
    rw [units, if_pos hunit, List.singleton_append,
      joinHalves_cons (Bool.or_eq_false_iff.1 hhalf).1, hcode]
  · have hbound := toNat_lt_of_char c
    have hhigh : isHighHalf (0xD800 + (c.toNat - 0x10000) / 0x400) = true := by
      simp only [isHighHalf, Bool.and_eq_true, decide_eq_true_eq]
      omega
    have hlow : isLowHalf (0xDC00 + (c.toNat - 0x10000) % 0x400) = true := by
      simp only [isLowHalf, Bool.and_eq_true, decide_eq_true_eq]
      omega
    have hsum : 0x10000 + (0xD800 + (c.toNat - 0x10000) / 0x400 - 0xD800) * 0x400 +
        (0xDC00 + (c.toNat - 0x10000) % 0x400 - 0xDC00) = c.toNat := by
      omega
    rw [units, if_neg hunit, List.cons_append, List.singleton_append, joinHalves, hhigh, hlow,
      Bool.and_self, if_pos rfl, hsum, Char.ofNat_toNat]

theorem joinHalves_units (s : List Char) : joinHalves (s.flatMap units) = s := by
  induction s with
  | nil => rfl
  | cons c s ih => rw [List.flatMap_cons, joinHalves_units_append, ih]

/-! ## Texts -/

/-- A written text is read back behind its opening quotation mark. -/
theorem readString_escape (s : String) (cs : List Char) (p : Nat) : ∃ q,
    readString (s.toList.flatMap escapeChar ++ '"' :: cs) p = .ok (s, ⟨cs, q⟩) := by
  obtain ⟨q, hq⟩ : ∃ q, textBody (p - 1) (s.toList.flatMap escapeChar ++ '"' :: cs) p [] =
      .ok ([].reverse ++ s.toList.flatMap units, ⟨cs, q⟩) := textBody_escape s.toList p []
  refine ⟨q, ?_⟩
  rw [readString, hq, List.reverse_nil, List.nil_append]
  change Except.ok (String.ofList (joinHalves _), _) = _
  rw [joinHalves_units, String.ofList_toList]

theorem toList_escape (s : String) :
    (escape s).toList = '"' :: (s.toList.flatMap escapeChar ++ ['"']) := by
  rw [escape, String.toList_ofList, List.cons_append]

end CardArchive.Json
