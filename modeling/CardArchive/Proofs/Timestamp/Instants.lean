import CardArchive.Proofs.Timestamp.ReadBack

/-!
# Points in time

A date is a place in a sequence of years of different lengths, and within its year a place
in a sequence of months. In both, the place tells the block and the day in it, so that the
number of a day tells its date, and the instant of a timestamp tells its fields as soon as
its offset is known.

## What this module delivers

* `place_unique`: the number of a place in consecutive blocks tells both.
* `dayNumber_inj`: dates with the same number are the same.
* `Timestamp.eq_of_instant`: timestamps of one instant with the same offset are the same.
* `Timestamp.equals`: which timestamps of different clocks are equal.
-/

set_option autoImplicit false

namespace CardArchive

/-! ## Consecutive blocks -/

section Blocks

variable {start size : Nat → Nat} (hnext : ∀ n, 1 ≤ n → start (n + 1) = start n + size n)

include hnext

/-- A block ends before every later one begins. -/
theorem end_le_start {m n : Nat} (hm : 1 ≤ m) (h : m < n) : start m + size m ≤ start n := by
  induction n, h using Nat.le_induction with
  | base => exact (hnext m hm).ge
  | succ n hmn ih =>
    rw [hnext n (by omega)]
    omega

/-- The number of a place tells the block and the place in it. -/
theorem place_unique {m n j k : Nat} (hm : 1 ≤ m) (hn : 1 ≤ n) (hj : 1 ≤ j) (hjsize : j ≤ size m)
    (hk : 1 ≤ k) (hksize : k ≤ size n) (h : start m + j = start n + k) : m = n ∧ j = k := by
  have hsame : m = n := by
    rcases Nat.lt_trichotomy m n with hlt | heq | hgt
    · have := end_le_start hnext hm hlt
      omega
    · exact heq
    · have := end_le_start hnext hn hgt
      omega
  subst hsame
  exact ⟨rfl, by omega⟩

end Blocks

/-! ## Days -/

theorem daysBeforeYear_succ (y : Nat) (h : 1 ≤ y) :
    daysBeforeYear (y + 1) = daysBeforeYear y + daysInYear y := by
  obtain ⟨k, rfl⟩ : ∃ k, y = k + 1 := ⟨y - 1, by omega⟩
  have hleap : isLeapYear (k + 1) = true ↔ 4 ∣ k + 1 ∧ (¬100 ∣ k + 1 ∨ 400 ∣ k + 1) := by
    simp [isLeapYear, Nat.dvd_iff_mod_eq_zero]
  have h100 : 100 ∣ k + 1 → 4 ∣ k + 1 := Nat.dvd_trans (by decide)
  have h400 : 400 ∣ k + 1 → 100 ∣ k + 1 := Nat.dvd_trans (by decide)
  have hle : k / 100 ≤ k / 4 := Nat.div_le_div_left (by decide) (by decide)
  simp only [daysBeforeYear, daysInYear, hleap, Nat.add_sub_cancel, Nat.succ_div]
  by_cases hr : 400 ∣ k + 1
  · simp only [h400 hr, h100 (h400 hr), hr, if_true, or_true, and_true]
    omega
  · by_cases hq : 100 ∣ k + 1
    · simp only [h100 hq, hq, hr, if_true, if_false, not_true, or_false, and_false]
      omega
    · by_cases hp : 4 ∣ k + 1
      · simp only [hp, hq, hr, if_true, if_false, not_false_eq_true, or_false, and_true]
        omega
      · simp only [hp, hq, hr, if_false, false_and]
        omega

theorem daysBeforeMonth_succ (y m : Nat) (h : 1 ≤ m) :
    daysBeforeMonth y (m + 1) = daysBeforeMonth y m + daysInMonth y m := by
  cases m with
  | zero => exact absurd h (by decide)
  | succ m => rfl

/-- The months of a year together are as long as the year. -/
theorem daysBeforeMonth_thirteen (y : Nat) : daysBeforeMonth y 13 = daysInYear y := by
  simp only [daysBeforeMonth, daysInMonth, daysInYear]
  cases isLeapYear y <;> rfl

/-- A day of a month is a day of the year. -/
theorem dayOfYear_le {y m d : Nat} (hm : 1 ≤ m) (hm12 : m ≤ 12) (hd : d ≤ daysInMonth y m) :
    daysBeforeMonth y m + d ≤ daysInYear y := by
  have hend := end_le_start (daysBeforeMonth_succ y) hm (n := 13) (by omega)
  rw [daysBeforeMonth_thirteen] at hend
  omega

/-- A date: the month is one of the year's and the day is one of the month's. -/
structure IsDate (y m d : Nat) : Prop where
  year_pos : 1 ≤ y
  month_pos : 1 ≤ m
  month_le : m ≤ 12
  day_pos : 1 ≤ d
  day_le : d ≤ daysInMonth y m

/-- Dates with the same number are the same. -/
theorem dayNumber_inj {y m d y' m' d' : Nat} (h : IsDate y m d) (h' : IsDate y' m' d')
    (heq : dayNumber y m d = dayNumber y' m' d') : y = y' ∧ m = m' ∧ d = d' := by
  have hfits := dayOfYear_le h.month_pos h.month_le h.day_le
  have hfits' := dayOfYear_le h'.month_pos h'.month_le h'.day_le
  rw [dayNumber, dayNumber, Nat.add_assoc, Nat.add_assoc] at heq
  obtain ⟨rfl, hday⟩ := place_unique daysBeforeYear_succ h.year_pos h'.year_pos
    (Nat.le_add_left_of_le h.day_pos) hfits (Nat.le_add_left_of_le h'.day_pos) hfits' heq
  exact ⟨rfl, place_unique (daysBeforeMonth_succ y) h.month_pos h'.month_pos h.day_pos h.day_le
    h'.day_pos h'.day_le hday⟩

/-! ## Instants -/

namespace Timestamp

theorem isDate_of_isValid {t : Timestamp} (h : t.isValid = true) :
    IsDate t.year t.month t.day := by
  simp only [isValid, Bool.and_eq_true, decide_eq_true_eq] at h
  obtain ⟨⟨⟨⟨⟨⟨⟨⟨⟨⟨⟨hyear, -⟩, hmonth⟩, hmonth12⟩, hday⟩, hlast⟩, -⟩, -⟩, -⟩, -⟩, -⟩, -⟩ := h
  exact ⟨hyear, hmonth, hmonth12, hday, hlast⟩

/-- A number of full units and what is left over are told by their sum. -/
theorem carry_unique {a b x y n : Nat} (hx : x < n) (hy : y < n) (h : a * n + x = b * n + y) :
    a = b ∧ x = y := by
  have hpos : 0 < n := by omega
  constructor
  · have hdiv := congrArg (· / n) h
    simpa [Nat.add_comm _ x, Nat.add_comm _ y, Nat.add_mul_div_right _ _ hpos,
      Nat.div_eq_of_lt hx, Nat.div_eq_of_lt hy] using hdiv
  · have hmod := congrArg (· % n) h
    simpa [Nat.add_comm _ x, Nat.add_comm _ y, Nat.mod_eq_of_lt hx, Nat.mod_eq_of_lt hy] using hmod

/-- Timestamps of one instant with the same offset are the same, once the offset is fixed. -/
theorem eq_of_instant {t u : Timestamp} (ht : t.isValid = true) (hu : u.isValid = true)
    (hoffset : t.offset = u.offset) (h : t.instant = u.instant) : t.fixed = u.fixed := by
  obtain ⟨-, -, -, hhour, hminute, hsecond, hus, -⟩ := ranges_of_isValid ht
  obtain ⟨-, -, -, hhour', hminute', hsecond', hus', -⟩ := ranges_of_isValid hu
  rw [instant, instant, hoffset, sub_left_inj] at h
  norm_cast at h
  -- from the microseconds up, each field is a remainder
  obtain ⟨h, hus⟩ := carry_unique hus hus' h
  obtain ⟨h, hsecond⟩ := carry_unique hsecond hsecond' h
  obtain ⟨h, hminute⟩ := carry_unique hminute hminute' h
  obtain ⟨h, hhour⟩ := carry_unique hhour hhour' h
  obtain ⟨hyear, hmonth, hday⟩ := dayNumber_inj (isDate_of_isValid ht) (isDate_of_isValid hu) h
  cases t
  cases u
  simp only [fixed, mk.injEq] at *
  exact ⟨hyear, hmonth, hday, hhour, hminute, hsecond, hus, hoffset, trivial⟩

/-- Whether timestamps that two clocks give are equal: either both float or none does, both
are of one instant, and none of them is ambiguous. -/
def equals (t u : Timestamp) : Bool :=
  t.isFloating == u.isFloating && t.instant == u.instant && !t.ambiguous && !u.ambiguous

/-- A timestamp equals itself with its offset fixed exactly if it is not ambiguous. -/
theorem fixed_equals (t : Timestamp) : t.fixed.equals t = !t.ambiguous := by
  simp [equals]

end Timestamp

end CardArchive
