import CardArchive.Text.Integer
import Mathlib.Tactic

/-!
# Numerals are read back

An integer is written with the ten digits, after a hyphen if it is negative. Reading what
was written gives the integer again.

## What this module delivers

* `natOfDigits_toDigits`: the digits of a natural number write it.
* `IsWritable`: the integers that a numeral of few enough digits writes.
* `readInteger?_of_isDigitLike`: which runs of digits are written numbers.
* `readInteger?_toString`: the numeral of an integer is read back.
* `isWritable_of_readInteger?`: what is read can be written.
-/

set_option autoImplicit false

namespace CardArchive.Text

/-- The ten digits come first among the digits of all scripts. -/
theorem digitValue?_of_isDigit {c : Char} (h : c.isDigit = true) :
    digitValue? c = some (c.toNat - '0'.toNat) := by
  obtain ⟨hlow, hhigh⟩ := Char.isDigit_iff_toNat.1 h
  have hzero : '0'.toNat = 0x30 := rfl
  have hnine : '9'.toNat = 0x39 := rfl
  have hfirst : (decide (0x30 ≤ c.toNat) && decide (c.toNat ≤ 0x30 + 9)) = true := by
    simp only [Bool.and_eq_true, decide_eq_true_eq]
    omega
  have hzeros : digitZeros = 0x30 :: digitZeros.tail := rfl
  rw [digitValue?, hzeros, List.find?_cons]
  simp only [hfirst, hzero]

theorem isDecimal_of_isDigit {c : Char} (h : c.isDigit = true) : isDecimal c = true := by
  rw [isDecimal, digitValue?_of_isDigit h]
  rfl

theorem natOfDigitsFrom_eq {cs : List Char} (h : ∀ c ∈ cs, c.isDigit = true) (acc : Nat) :
    natOfDigitsFrom acc cs = Nat.ofDigitChars 10 cs acc := by
  induction cs generalizing acc with
  | nil => rfl
  | cons c cs ih =>
    obtain ⟨hc, hcs⟩ := List.forall_mem_cons.1 h
    rw [natOfDigitsFrom, digitValue?_of_isDigit hc, Nat.ofDigitChars_cons, ih hcs]
    rfl

/-- A run of decimal digits has as many digits as characters. -/
theorem digitCount_of_isDecimal {cs : List Char} (h : ∀ c ∈ cs, isDecimal c = true) :
    digitCount cs = cs.length :=
  List.countP_eq_length.2 h

/-- Where no underscore stands, only decimal digits may follow a digit. -/
theorem areFurtherDigits_eq_all {cs : List Char} (h : '_' ∉ cs) :
    areFurtherDigits cs = cs.all isDecimal := by
  induction cs with
  | nil => rfl
  | cons c cs ih =>
    rw [List.mem_cons, not_or] at h
    rw [areFurtherDigits, List.all_cons, ih h.2]
    exact fun _ _ hc _ => h.1 hc.symm

theorem areFurtherDigits_of_isDigit {cs : List Char} (h : ∀ c ∈ cs, c.isDigit = true) :
    areFurtherDigits cs = true := by
  have hunderscore : '_' ∉ cs := fun hmem => absurd (h '_' hmem) (by decide)
  rw [areFurtherDigits_eq_all hunderscore, List.all_eq_true]
  exact fun c hc => isDecimal_of_isDigit (h c hc)

section

variable (n : Nat)

theorem isDigit_of_mem_toDigits {c : Char} (h : c ∈ Nat.toDigits 10 n) : c.isDigit = true :=
  Nat.isDigit_of_mem_toDigits (by decide) (by decide) h

theorem natOfDigits_toDigits : natOfDigits (Nat.toDigits 10 n) = n := by
  rw [natOfDigits, natOfDigitsFrom_eq fun c => isDigit_of_mem_toDigits n,
    Nat.ofDigitChars_ten_toDigits]

theorem digitCount_toDigits_le {n : Nat} (h : n < 10 ^ digitLimit) :
    digitCount (Nat.toDigits 10 n) ≤ digitLimit := by
  rw [digitCount_of_isDecimal fun c hc => isDecimal_of_isDigit (isDigit_of_mem_toDigits n hc)]
  exact Nat.toDigits_length 10 n digitLimit (by decide) h

theorem readNatural?_toDigits {n : Nat} (h : n < 10 ^ digitLimit) :
    readNatural? (Nat.toDigits 10 n) = some n := by
  have hdigits := fun c => isDigit_of_mem_toDigits n (c := c)
  have hcount := digitCount_toDigits_le h
  obtain ⟨c, cs, hcs⟩ := List.exists_cons_of_ne_nil (Nat.toDigits_ne_nil (b := 10) (n := n))
  have hread := natOfDigits_toDigits n
  rw [hcs] at hdigits hread hcount ⊢
  obtain ⟨hc, hrest⟩ := List.forall_mem_cons.1 hdigits
  have hnone : cs.filter (· != '_') = cs := by
    rw [List.filter_eq_self]
    intro d hd
    rw [bne_iff_ne]
    rintro rfl
    exact absurd (hrest _ hd) (by decide)
  rw [readNatural?, isDecimal_of_isDigit hc, areFurtherDigits_of_isDigit hrest, hnone, hread,
    decide_eq_true hcount]
  rfl

end

/-- A text without blanks at its ends is not trimmed. -/
theorem trimNumber_eq_self {cs : List Char} (h : ∀ c ∈ cs, isNumberBlank c = false) :
    trimNumber cs = cs := by
  have hdrop : ∀ {ds : List Char}, (∀ c ∈ ds, isNumberBlank c = false) →
      ds.dropWhile isNumberBlank = ds := by
    intro ds hds
    cases ds with
    | nil => rfl
    | cons d ds => rw [List.dropWhile_cons_of_neg (by simp [hds d List.mem_cons_self])]
  have hreverse : ∀ c ∈ cs.reverse, isNumberBlank c = false :=
    fun c hc => h c (List.mem_reverse.1 hc)
  rw [trimNumber, hdrop h, hdrop hreverse, List.reverse_reverse]

theorem isBlank_of_isDigit {c : Char} (h : c.isDigit = true) : isBlank c = false := by
  obtain ⟨hlow, hhigh⟩ := Char.isDigit_iff_toNat.1 h
  have hzero : '0'.toNat = 0x30 := rfl
  have hnine : '9'.toNat = 0x39 := rfl
  rw [Bool.eq_false_iff]
  intro hb
  simp only [isBlank, inRanges, blankRanges, List.any_cons, List.any_nil, Bool.or_eq_true,
    Bool.and_eq_true, decide_eq_true_eq, Bool.false_eq_true, or_false] at hb
  omega

/-! ## Runs of digits of every script -/

theorem exists_zero_of_isDecimal {c : Char} (h : isDecimal c = true) :
    ∃ z ∈ digitZeros, z ≤ c.toNat ∧ c.toNat ≤ z + 9 := by
  rw [isDecimal, digitValue?] at h
  split at h
  · rename_i z hz
    refine ⟨z, List.mem_of_find?_eq_some hz, ?_⟩
    simpa using List.find?_some hz
  · cases h

/-- No digit of any script, decimal or not, is a blank. -/
theorem isBlank_of_isDigitLike {c : Char} (h : isDigitLike c = true) : isBlank c = false := by
  -- both tables of digits keep apart from the table of blanks, range by range
  have hapart : ∀ b ∈ blankRanges, (∀ z ∈ digitZeros, z + 9 < b.1 ∨ b.2 < z) ∧
      ∀ r ∈ symbolDigitRanges, r.2 < b.1 ∨ b.2 < r.1 := by decide
  rw [Bool.eq_false_iff]
  intro hblank
  obtain ⟨b, hb, hin⟩ := List.any_eq_true.1 hblank
  obtain ⟨hzeros, hranges⟩ := hapart b hb
  simp only [Bool.and_eq_true, decide_eq_true_eq] at hin
  rw [isDigitLike, Bool.or_eq_true] at h
  rcases h with hdecimal | hsymbol
  · obtain ⟨z, hz, hlow, hhigh⟩ := exists_zero_of_isDecimal hdecimal
    have hz := hzeros z hz
    omega
  · obtain ⟨r, hr, hbounds⟩ := List.any_eq_true.1 hsymbol
    simp only [Bool.and_eq_true, decide_eq_true_eq] at hbounds
    have hr := hranges r hr
    omega

/-- A run of digits of any kind is a written number exactly if all of them are decimal and
there are not too many. -/
theorem readInteger?_of_isDigitLike {cs : List Char} (hne : cs ≠ [])
    (h : ∀ c ∈ cs, isDigitLike c = true) :
    readInteger? cs = if cs.all isDecimal && cs.length ≤ digitLimit then
      some (natOfDigits cs : Int) else none := by
  have htrim : trimNumber cs = cs := by
    apply trimNumber_eq_self
    intro c hc
    rw [isNumberBlank, isBlank_of_isDigitLike (h c hc), Bool.false_and]
  -- signs and underscores are no digits, so none of them stands among these
  have hmark : ∀ m ∈ ['-', '+', '_'], m ∉ cs := by
    have hmarks : ∀ m ∈ ['-', '+', '_'], isDigitLike m = false := by
      intro m hm
      simp only [List.mem_cons, List.not_mem_nil, or_false] at hm
      rcases hm with rfl | rfl | rfl <;> rfl
    intro m hm hmem
    exact absurd (h m hmem) (by simp [hmarks m hm])
  obtain ⟨c, rest, rfl⟩ := List.exists_cons_of_ne_nil hne
  have hunderscore : '_' ∉ rest := fun hr => hmark '_' (by simp) (List.mem_cons_of_mem c hr)
  have hfilter : rest.filter (· != '_') = rest := by
    rw [List.filter_eq_self]
    intro d hd
    rw [bne_iff_ne]
    rintro rfl
    exact hunderscore hd
  rw [readInteger?, htrim]
  split
  · rename_i r hr
    exact absurd (hr ▸ List.mem_cons_self) (hmark '-' (by simp))
  · rename_i r hr
    exact absurd (hr ▸ List.mem_cons_self) (hmark '+' (by simp))
  · rw [readNatural?, areFurtherDigits_eq_all hunderscore, hfilter, ← List.all_cons]
    cases hall : (c :: rest).all isDecimal with
    | false => rfl
    | true =>
      rw [digitCount_of_isDecimal fun d hd => List.all_eq_true.1 hall d hd]
      by_cases hlen : (c :: rest).length ≤ digitLimit
      · simp only [hlen, decide_true, Bool.and_self, if_true, Option.map_some, Int.ofNat_eq_natCast]
      · simp only [hlen, decide_false, Bool.and_false, Bool.false_eq_true, if_false,
          Option.map_none]

/-! ## Numerals of integers -/

/-- An integer whose numeral has no more digits than can be read. -/
def IsWritable (n : Int) : Prop := n.natAbs < 10 ^ digitLimit

theorem isWritable_iff {n : Int} : IsWritable n ↔ n.natAbs < Nat.pow 10 digitLimit := by
  rw [IsWritable, Nat.pow_eq]

theorem toList_ofNat (m : Nat) : (toString (Int.ofNat m)).toList = Nat.toDigits 10 m :=
  Nat.toList_repr

theorem toList_negSucc (m : Nat) :
    (toString (Int.negSucc m)).toList = '-' :: Nat.toDigits 10 (m + 1) := by
  change ("-" ++ (m + 1).repr).toList = _
  rw [String.toList_append, Nat.toList_repr]
  rfl

/-- A numeral is made of digits and a hyphen. -/
theorem mem_toString {n : Int} {c : Char} (h : c ∈ (toString n).toList) :
    c = '-' ∨ c.isDigit = true := by
  cases n with
  | ofNat m =>
    rw [toList_ofNat] at h
    exact .inr (isDigit_of_mem_toDigits m h)
  | negSucc m =>
    rw [toList_negSucc] at h
    rcases List.mem_cons.1 h with rfl | h
    · exact .inl rfl
    · exact .inr (isDigit_of_mem_toDigits (m + 1) h)

theorem isBlank_of_mem_toString {n : Int} {c : Char} (h : c ∈ (toString n).toList) :
    isBlank c = false := by
  rcases mem_toString h with rfl | h
  · decide
  · exact isBlank_of_isDigit h

/-- Digits take one byte each. -/
theorem utf8ByteSize_of_isDigit {cs : List Char} (h : ∀ c ∈ cs, c.isDigit = true) :
    (String.ofList cs).utf8ByteSize = cs.length := by
  induction cs with
  | nil => rfl
  | cons c cs ih =>
    obtain ⟨hc, hcs⟩ := List.forall_mem_cons.1 h
    have hone : c.utf8Size = 1 := by
      obtain ⟨-, hhigh⟩ := Char.isDigit_iff_toNat.1 hc
      rw [Char.utf8Size_eq_one_iff]
      exact UInt32.le_iff_toNat_le.2 (hhigh.trans (by decide))
    rw [← List.singleton_append, String.ofList_append, String.utf8ByteSize_append, ih hcs,
      ← String.singleton_eq_ofList, String.utf8ByteSize_singleton, hone, Nat.add_comm]
    rfl

theorem utf8ByteSize_repr_le {m k : Nat} (hk : 0 < k) (h : m < 10 ^ k) :
    m.repr.utf8ByteSize ≤ k := by
  rw [← String.ofList_toList (s := m.repr), Nat.toList_repr,
    utf8ByteSize_of_isDigit fun _ => isDigit_of_mem_toDigits m]
  exact Nat.toDigits_length 10 m k hk h

/-- An integer that can be written takes a byte for each digit, and one for a sign. -/
theorem utf8ByteSize_toString_le {n : Int} (h : IsWritable n) :
    (toString n).utf8ByteSize ≤ digitLimit + 1 := by
  cases n with
  | ofNat m => exact (utf8ByteSize_repr_le (by decide) h).trans (Nat.le_succ _)
  | negSucc m =>
    have hsign : "-".utf8ByteSize = 1 := rfl
    have hdigits : (m + 1).repr.utf8ByteSize ≤ digitLimit := utf8ByteSize_repr_le (by decide) h
    change ("-" ++ (m + 1).repr).utf8ByteSize ≤ _
    rw [String.utf8ByteSize_append, hsign]
    omega

/-- The numeral of an integer is read back, unless it has too many digits. -/
theorem readInteger?_toString {n : Int} (hn : IsWritable n) :
    readInteger? (toString n).toList = some n := by
  have htrim : trimNumber (toString n).toList = (toString n).toList := by
    apply trimNumber_eq_self
    intro c hc
    rw [isNumberBlank, isBlank_of_mem_toString hc, Bool.false_and]
  rw [readInteger?, htrim]
  cases n with
  | ofNat m =>
    -- a digit is no sign
    have hsign : ∀ c r, (toString (Int.ofNat m)).toList = c :: r → c.isDigit = true :=
      fun c r hr => isDigit_of_mem_toDigits m (toList_ofNat m ▸ hr ▸ List.mem_cons_self)
    split
    · rename_i r hr
      exact absurd (hsign _ _ hr) (by decide)
    · rename_i r hr
      exact absurd (hsign _ _ hr) (by decide)
    · have hm : m < 10 ^ digitLimit := hn
      rw [toList_ofNat, readNatural?_toDigits hm]
      rfl
  | negSucc m =>
    have hm : m + 1 < 10 ^ digitLimit := hn
    rw [toList_negSucc]
    simp only [readNatural?_toDigits hm, Option.map_some]
    rfl

/-! ## What is read can be written -/

theorem digitValue_le (c : Char) : (digitValue? c).getD 0 ≤ 9 := by
  unfold digitValue?
  split
  · rename_i z hz
    have hrange := List.find?_some hz
    simp only [Bool.and_eq_true, decide_eq_true_eq] at hrange
    rw [Option.getD_some]
    omega
  · exact Nat.zero_le 9

/-- Every digit makes a number ten times as large at most. -/
theorem natOfDigitsFrom_lt (cs : List Char) (acc : Nat) :
    natOfDigitsFrom acc cs < (acc + 1) * 10 ^ cs.length := by
  induction cs generalizing acc with
  | nil => simp [natOfDigitsFrom]
  | cons c cs ih =>
    have hdigit := digitValue_le c
    have hstep : 10 * acc + (digitValue? c).getD 0 + 1 ≤ 10 * (acc + 1) := by omega
    calc natOfDigitsFrom acc (c :: cs)
        < (10 * acc + (digitValue? c).getD 0 + 1) * 10 ^ cs.length := ih _
      _ ≤ 10 * (acc + 1) * 10 ^ cs.length := Nat.mul_le_mul_right _ hstep
      _ = (acc + 1) * 10 ^ (c :: cs).length := by rw [List.length_cons, Nat.pow_succ]; ring

theorem natOfDigits_lt (cs : List Char) : natOfDigits cs < 10 ^ cs.length := by
  have h := natOfDigitsFrom_lt cs 0
  rwa [Nat.zero_add, Nat.one_mul] at h

theorem isDecimal_of_areFurtherDigits {cs : List Char} (h : areFurtherDigits cs = true) :
    ∀ c ∈ cs.filter (· != '_'), isDecimal c = true := by
  induction cs using areFurtherDigits.induct with
  | case1 => simp
  | case2 c cs ih =>
    rw [areFurtherDigits, Bool.and_eq_true] at h
    rw [List.filter_cons_of_neg (by simp), List.filter_cons]
    split
    · exact List.forall_mem_cons.2 ⟨h.1, ih h.2⟩
    · exact ih h.2
  | case3 c cs hne ih =>
    rw [areFurtherDigits, Bool.and_eq_true] at h
    · rw [List.filter_cons]
      split
      · exact List.forall_mem_cons.2 ⟨h.1, ih h.2⟩
      · exact ih h.2
    · exact hne

/-- A number that is read is less than the power of ten of the limit. -/
theorem lt_of_readNatural? {cs : List Char} {n : Nat} (h : readNatural? cs = some n) :
    n < 10 ^ digitLimit := by
  cases cs with
  | nil => cases h
  | cons c cs =>
    rw [readNatural?] at h
    split at h
    · rename_i hread
      simp only [Bool.and_eq_true, decide_eq_true_eq] at hread
      obtain ⟨⟨hfirst, hrest⟩, hcount⟩ := hread
      have hdigits : ∀ d ∈ c :: cs.filter (· != '_'), isDecimal d = true :=
        List.forall_mem_cons.2 ⟨hfirst, isDecimal_of_areFurtherDigits hrest⟩
      have hlength : (c :: cs.filter (· != '_')).length ≤ digitLimit := by
        rw [← digitCount_of_isDecimal hdigits]
        exact (List.filter_sublist.cons_cons c).countP_le.trans hcount
      rw [← Option.some.inj h]
      exact (natOfDigits_lt _).trans_le (Nat.pow_le_pow_right (by decide) hlength)
    · cases h

/-- An integer that is read can be written. -/
theorem isWritable_of_readInteger? {cs : List Char} {n : Int} (h : readInteger? cs = some n) :
    IsWritable n := by
  have hread : ∃ r m, readNatural? r = some m ∧ (n = -Int.ofNat m ∨ n = Int.ofNat m) := by
    unfold readInteger? at h
    split at h
    · obtain ⟨m, hm, rfl⟩ := Option.map_eq_some_iff.1 h
      exact ⟨_, m, hm, .inl rfl⟩
    all_goals
      obtain ⟨m, hm, rfl⟩ := Option.map_eq_some_iff.1 h
      exact ⟨_, m, hm, .inr rfl⟩
  obtain ⟨r, m, hm, hn⟩ := hread
  have habs : n.natAbs = m := by rcases hn with rfl | rfl <;> simp
  rw [IsWritable, habs]
  exact lt_of_readNatural? hm

end CardArchive.Text
