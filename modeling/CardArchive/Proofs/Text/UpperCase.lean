import CardArchive.Text.UpperCase
import Mathlib.Tactic

/-!
# Upper case twice

The upper case form of a text holds no character that has another upper case form. For the
characters that move in runs this is seen from the runs: what one of them moves to lies
outside the others, or between their code points where they skip every second one.

## What this module delivers

* `moves`: the code points that have another upper case form.
* `CaseRun.avoids`: two runs of which one does not move into the other.
* `upperChar_of_stays`, `upperChar_of_mem`: the characters of an upper case form stay.
* `upper_upper`: upper case twice is upper case.
-/

set_option autoImplicit false

namespace CardArchive.Text

/-! ## Characters that stay -/

/-- Whether a code point has an upper case form of its own. -/
def moves (n : Nat) : Bool :=
  upperExpansions.any (fun e => e.1 == n) || upperRuns.toList.any fun r => r.covers n

theorem moves_eq_false {n : Nat} :
    moves n = false ↔
      (∀ e ∈ upperExpansions, e.1 ≠ n) ∧ ∀ r ∈ upperRuns.toList, r.covers n = false := by
  simp only [moves, Bool.or_eq_false_iff, List.any_eq_false, beq_iff_eq, Bool.not_eq_true]

/-- Below 128 only the letters `a` to `z` move. -/
theorem moves_of_ascii {n : Nat} (h : n < 128) (hletter : ¬(97 ≤ n ∧ n ≤ 122)) :
    moves n = false := by
  have hkeys : ∀ e ∈ upperExpansions, 128 ≤ e.1 := by decide +kernel
  have hruns : ∀ r ∈ upperRuns.toList, r.first = 97 ∧ r.last = 122 ∨ 128 ≤ r.first := by
    decide +kernel
  rw [moves_eq_false]
  refine ⟨fun e he => ?_, fun r hr => ?_⟩
  · have := hkeys e he
    omega
  · simp only [CaseRun.covers, Bool.and_eq_false_iff, decide_eq_false_iff_not]
    rcases hruns r hr with ⟨hfirst, hlast⟩ | hfirst
    · omega
    · exact .inl (.inl (by omega))

/-- The letters `a` to `z` move. -/
theorem letters_move {n : Nat} (h : 97 ≤ n) (h' : n ≤ 122) : moves n = true := by
  have hrun : (⟨0x61, 0x7A, 1, -32⟩ : CaseRun) ∈ upperRuns.toList := List.mem_cons_self
  simp only [moves, Bool.or_eq_true]
  exact .inr (List.any_eq_true.2 ⟨_, hrun, by simp [CaseRun.covers, h, h', Nat.mod_one]⟩)

theorem toUpper_of_not_letter {c : Char} (h : ¬(97 ≤ c.toNat ∧ c.toNat ≤ 122)) :
    c.toUpper = c := by
  have hletter : ¬('a'.val ≤ c.val ∧ c.val ≤ 'z'.val) := by
    simpa [UInt32.le_iff_toNat_le] using h
  exact dif_neg hletter

theorem toUpper_of_letter {c : Char} (h : 97 ≤ c.toNat ∧ c.toNat ≤ 122) :
    c.toUpper.toNat = c.toNat - 32 := by
  have hletter : 'a'.val ≤ c.val ∧ c.val ≤ 'z'.val := by
    simpa [UInt32.le_iff_toNat_le] using h
  have hmoved : c.toUpper = ⟨c.val + ('A'.val - 'a'.val), _⟩ := dif_pos hletter
  rw [hmoved]
  have hsum : (c.val + ('A'.val - 'a'.val)).toNat = (c.toNat + 4294967264) % 4294967296 :=
    UInt32.toNat_add _ _
  change (c.val + ('A'.val - 'a'.val)).toNat = c.toNat - 32
  omega

theorem upperChar_of_stays {c : Char} (h : moves c.toNat = false) : upperChar c = [c] := by
  unfold upperChar
  split
  · rw [toUpper_of_not_letter]
    rintro ⟨hlow, hhigh⟩
    rw [letters_move hlow hhigh] at h
    cases h
  · obtain ⟨hkeys, hruns⟩ := moves_eq_false.1 h
    have hexpansion : upperExpansions.lookup c.toNat = none :=
      List.lookup_eq_none_iff.2 fun e he => by simpa using Ne.symm (hkeys e he)
    have hrun : upperRuns.find? (fun r => r.covers c.toNat) = none := by
      rw [← Array.find?_toList, List.find?_eq_none]
      exact fun r hr => by simp [hruns r hr]
    simp only [upperCharWide, hexpansion, hrun]

/-! ## Runs -/

namespace CaseRun

/-- The code point that a run moves another one to. -/
def target (r : CaseRun) (n : Nat) : Nat := ((n : Int) + r.shift).toNat

/-- Whether a run moves no code point into another run: all of its targets lie before or
behind the other, or between the code points of one that skips every second one. -/
def avoids (r other : CaseRun) : Bool :=
  (r.target r.last).blt other.first || other.last.blt (r.target r.first) ||
    (other.step.beq 2 && (r.step.beq 2 || r.first.beq r.last) &&
      ((r.target r.first + other.first) % 2).beq 1)

/-- Whether the targets of a run are characters. -/
def isSound (r : CaseRun) : Bool :=
  0 ≤ (r.first : Int) + r.shift &&
    (r.target r.last < 0xD800 || (0xDFFF < r.target r.first && r.target r.last < 0x110000))

theorem covers_iff {r : CaseRun} {n : Nat} :
    r.covers n = true ↔ r.first ≤ n ∧ n ≤ r.last ∧ (n - r.first) % r.step = 0 := by
  simp only [covers, Bool.and_eq_true, decide_eq_true_eq, beq_iff_eq, and_assoc]

section

variable {r : CaseRun} {n : Nat} (hsound : r.isSound = true) (hn : r.covers n = true)

include hsound hn

theorem target_bounds : r.target r.first ≤ r.target n ∧ r.target n ≤ r.target r.last ∧
    r.target n + r.first = r.target r.first + n := by
  obtain ⟨hfirst, hlast, -⟩ := covers_iff.1 hn
  obtain ⟨hshift, -⟩ := Bool.and_eq_true_iff.1 hsound
  have hshift := of_decide_eq_true hshift
  simp only [target]
  omega

theorem toNat_target : (Char.ofNat (r.target n)).toNat = r.target n := by
  obtain ⟨hlow, hhigh, -⟩ := target_bounds hsound hn
  obtain ⟨-, hvalid⟩ := Bool.and_eq_true_iff.1 hsound
  simp only [Bool.or_eq_true, Bool.and_eq_true, decide_eq_true_eq] at hvalid
  have hchar : (r.target n).isValidChar := by
    rcases hvalid with hvalid | ⟨hvalid, hbound⟩
    · exact .inl (by omega)
    · exact .inr ⟨by omega, by omega⟩
  rw [Char.ofNat, dif_pos hchar]
  rfl

theorem not_covers_target {other : CaseRun} (h : r.avoids other = true) :
    other.covers (r.target n) = false := by
  obtain ⟨hlow, hhigh, hdistance⟩ := target_bounds hsound hn
  obtain ⟨hfirst, hlast, hstep⟩ := covers_iff.1 hn
  rw [Bool.eq_false_iff, ne_eq, covers_iff]
  rintro ⟨hfirst', hlast', hstep'⟩
  simp only [avoids, Bool.or_eq_true, Bool.and_eq_true, Nat.blt_eq, Nat.beq_eq] at h
  rcases h with (hbefore | hbehind) | ⟨⟨htwo, hkind⟩, hodd⟩
  · omega
  · omega
  · -- the targets have one parity and the other run has the other one
    rw [htwo] at hstep'
    rcases hkind with hstep2 | hsingle
    · rw [hstep2] at hstep
      omega
    · omega

end

end CaseRun

/-! ## Upper case forms -/

theorem expansions_stay : ∀ e ∈ upperExpansions, ∀ n ∈ e.2,
    (Char.ofNat n).toNat = n ∧ moves n = false := by
  decide +kernel

theorem runs_sound : ∀ r ∈ upperRuns.toList, r.isSound = true := by
  decide +kernel

theorem runs_avoid_runs : (upperRuns.toList.all fun r => upperRuns.toList.all r.avoids) = true := by
  decide +kernel

theorem runs_avoid_expansions : (upperRuns.toList.all fun r =>
    upperExpansions.all fun e => r.avoids ⟨e.1, e.1, 2, 0⟩) = true := by
  decide +kernel

/-- What a run moves a code point to stays. -/
theorem not_moves_target {r : CaseRun} (hr : r ∈ upperRuns.toList) {n : Nat}
    (hn : r.covers n = true) : moves (r.target n) = false := by
  have hsound := runs_sound r hr
  rw [moves_eq_false]
  refine ⟨fun e he heq => ?_, fun other hother => ?_⟩
  · have havoids := List.all_eq_true.1 (List.all_eq_true.1 runs_avoid_expansions r hr) e he
    have hother := CaseRun.not_covers_target hsound hn havoids
    rw [← heq, Bool.eq_false_iff, ne_eq, CaseRun.covers_iff] at hother
    simp at hother
  · exact CaseRun.not_covers_target hsound hn
      (List.all_eq_true.1 (List.all_eq_true.1 runs_avoid_runs r hr) other hother)

/-- The characters of an upper case form stay. -/
theorem upperChar_of_mem {c d : Char} (h : d ∈ upperChar c) : upperChar d = [d] := by
  apply upperChar_of_stays
  unfold upperChar at h
  split at h
  · rename_i hascii
    rw [List.mem_singleton.1 h]
    by_cases hletter : 97 ≤ c.toNat ∧ c.toNat ≤ 122
    · rw [toUpper_of_letter hletter]
      exact moves_of_ascii (by omega) (by omega)
    · rw [toUpper_of_not_letter hletter]
      exact moves_of_ascii hascii hletter
  · unfold upperCharWide at h
    cases hlookup : upperExpansions.lookup c.toNat with
    | some ns =>
      rw [hlookup] at h
      obtain ⟨n, hn, rfl⟩ := List.mem_map.1 h
      obtain ⟨l₁, l₂, hsplit, -⟩ := List.lookup_eq_some_iff.1 hlookup
      have hmem : (c.toNat, ns) ∈ upperExpansions := by simp [hsplit]
      obtain ⟨hsame, hstays⟩ := expansions_stay _ hmem n hn
      rw [hsame]
      exact hstays
    | none =>
      simp only [hlookup] at h
      split at h
      · rename_i r hfound
        rw [List.mem_singleton.1 h]
        rw [← Array.find?_toList] at hfound
        have hr := List.mem_of_find?_eq_some hfound
        have hn : r.covers c.toNat = true := by
          have hfits := List.find?_some hfound
          exact hfits
        have hchar := CaseRun.toNat_target (runs_sound r hr) hn
        rw [CaseRun.target] at hchar
        rw [hchar]
        exact not_moves_target hr hn
      · rename_i hnone
        rw [List.mem_singleton.1 h, moves_eq_false]
        rw [← Array.find?_toList] at hnone
        refine ⟨fun e he heq => ?_, fun r hr => ?_⟩
        · have := List.lookup_eq_none_iff.1 hlookup e he
          simp [heq] at this
        · simpa using List.find?_eq_none.1 hnone r hr

/-- Upper case twice is upper case. -/
theorem upper_upper (s : String) : upper (upper s) = upper s := by
  refine upper_eq_self fun c hc => ?_
  rw [upper, String.toList_ofList] at hc
  obtain ⟨d, -, hd⟩ := List.mem_flatMap.1 hc
  exact upperChar_of_mem hd

end CardArchive.Text
