import CardArchive.Timestamp.Reader
import Mathlib.Tactic

/-!
# Written timestamps are read back

The written form of a timestamp whose fields are in range is read as that timestamp,
whatever its fraction of a second and its offset are. So two such timestamps with the
same text are the same.

## What this module delivers

* `readDigits?_padded`: written digits are read as their number.
* `readDate?_dateChars`, `readClock?_clockChars`, `readOffset?_offsetText`: the parts.
* `ofText?_text`: a written timestamp is read back.
* `text_injective`: different timestamps have different texts.
-/

set_option autoImplicit false

namespace CardArchive.Timestamp

/-! ## Digits -/

/-- A decimal digit is read as its number, and no other sign of a timestamp is one. -/
theorem digitChar_facts {n : Nat} (h : n < 10) :
    (Nat.digitChar n).isDigit = true ∧ (Nat.digitChar n).toNat - 48 = n ∧
      startsOffset (Nat.digitChar n) = false ∧ Nat.digitChar n ≠ 'W' := by
  have all : ∀ k : Fin 10, (Nat.digitChar k).isDigit = true ∧ (Nat.digitChar k).toNat - 48 = k ∧
      startsOffset (Nat.digitChar k) = false ∧ Nat.digitChar k ≠ 'W' := by decide
  exact all ⟨n, h⟩

/-- Digits are read from the front; the last of them can be read on its own. -/
theorem readDigits?_succ (count n : Nat) (cs : List Char) :
    readDigits? (count + 1) n cs =
      (readDigits? count n cs).bind fun p => readDigits? 1 p.1 p.2 := by
  induction count generalizing n cs with
  | zero => rfl
  | succ count ih =>
    cases cs with
    | nil => rfl
    | cons c cs =>
      rw [readDigits?, readDigits?]
      split
      · exact ih _ _
      · rfl

theorem readDigits?_digit {n : Nat} (h : n < 10) (k : Nat) (rest : List Char) :
    readDigits? 1 k (Nat.digitChar n :: rest) = some (10 * k + n, rest) := by
  obtain ⟨hdigit, hvalue, -⟩ := digitChar_facts h
  rw [readDigits?, if_pos hdigit, hvalue, readDigits?]

/-- The last digits of a number are read as that part of it. -/
theorem readDigits?_padded (width n k : Nat) (rest : List Char) :
    readDigits? width k (padded width n ++ rest) =
      some (k * 10 ^ width + n % 10 ^ width, rest) := by
  induction width generalizing n k rest with
  | zero => simp [readDigits?, padded, Nat.mod_one]
  | succ width ih =>
    rw [readDigits?_succ, padded, List.append_assoc, ih]
    change readDigits? 1 _ (Nat.digitChar (n % 10) :: rest) = _
    rw [readDigits?_digit (Nat.mod_lt n (by decide))]
    have hmod : n % 10 ^ (width + 1) = 10 * (n / 10 % 10 ^ width) + n % 10 := by
      rw [Nat.pow_succ', Nat.mod_mul, Nat.add_comm]
    rw [hmod, Nat.pow_succ]
    congr 2
    ring

/-- A number that fits into its width is read back. -/
theorem readDigits?_padded_of_lt (width : Nat) {n : Nat} (h : n < 10 ^ width) (rest : List Char) :
    readDigits? width 0 (padded width n ++ rest) = some (n, rest) := by
  rw [readDigits?_padded, Nat.mod_eq_of_lt h, Nat.zero_mul, Nat.zero_add]

theorem padded_two (n : Nat) :
    padded 2 n = [Nat.digitChar (n / 10 % 10), Nat.digitChar (n % 10)] := rfl

theorem padded_four (n : Nat) :
    padded 4 n = [Nat.digitChar (n / 10 / 10 / 10 % 10), Nat.digitChar (n / 10 / 10 % 10),
      Nat.digitChar (n / 10 % 10), Nat.digitChar (n % 10)] := rfl

theorem mem_padded {width n : Nat} {c : Char} (h : c ∈ padded width n) :
    ∃ k < 10, c = Nat.digitChar k := by
  induction width generalizing n with
  | zero => cases h
  | succ width ih =>
    rcases List.mem_append.1 h with h | h
    · exact ih h
    · exact ⟨n % 10, Nat.mod_lt n (by decide), List.mem_singleton.1 h⟩

/-! ## The date -/

/-- The written date. -/
def dateChars (t : Timestamp) : List Char :=
  padded 4 t.year ++ '-' :: padded 2 t.month ++ '-' :: padded 2 t.day

theorem length_dateChars (t : Timestamp) : t.dateChars.length = 10 := by
  simp [dateChars]

theorem readDate?_dateChars {t : Timestamp} (hyear : t.year < 10000) (hmonth : t.month < 100)
    (hday : t.day < 100) : readDate? t.dateChars = some (t.year, t.month, t.day) := by
  have hyear' : readDigits? 4 0 t.dateChars =
      some (t.year, '-' :: padded 2 t.month ++ '-' :: padded 2 t.day) := by
    rw [dateChars, List.append_assoc]
    exact readDigits?_padded_of_lt 4 hyear _
  have hmonth' := readDigits?_padded_of_lt 2 hmonth ('-' :: padded 2 t.day)
  have hday' := readDigits?_padded_of_lt 2 hday []
  rw [List.append_nil] at hday'
  -- the month starts with a digit, so no week follows
  have hweek := (digitChar_facts (Nat.mod_lt (t.month / 10) (by decide : 0 < 10))).2.2.2
  rw [readDate?, hyear']
  simp only [List.cons_append, Option.bind_eq_bind, Option.bind_some, List.head?_cons, if_true,
    List.tail_cons]
  rw [padded_two t.month] at hmonth' ⊢
  simp only [List.cons_append, List.nil_append] at hmonth' ⊢
  split
  · rename_i heq
    exact absurd (List.cons.inj heq).1 hweek
  · rw [hmonth']
    simp [afterHyphen?, hday']

theorem dateLength?_dateChars (t : Timestamp) (rest : List Char) :
    dateLength? (t.dateChars ++ rest) = some 10 := by
  have hlength : (t.dateChars ++ rest).length = rest.length + 10 := by
    rw [List.length_append, length_dateChars, Nat.add_comm]
  have hfour : charAt (t.dateChars ++ rest) 4 = '-' := by
    simp [charAt, dateChars, padded_four]
  have hfive : charAt (t.dateChars ++ rest) 5 ≠ 'W' := by
    simp [charAt, dateChars, padded_four, padded_two]
  rw [dateLength?, hlength, if_neg (by omega), if_neg (by omega), if_pos hfour, if_neg hfive]

/-! ## The time of day -/

/-- A written time of day. -/
def clockChars (hour minute second us : Nat) : List Char :=
  padded 2 hour ++ ':' :: padded 2 minute ++ ':' :: padded 2 second ++ fractionText us

theorem length_clockChars (hour minute second us : Nat) :
    (clockChars hour minute second us).length = if us = 0 then 8 else 15 := by
  by_cases h : us = 0
  · simp [clockChars, fractionText, h]
  · simp [clockChars, fractionText, h]

theorem not_startsOffset_of_mem_clockChars {hour minute second us : Nat} {c : Char}
    (h : c ∈ clockChars hour minute second us) : startsOffset c = false := by
  have hdigits : ∀ {width n : Nat}, c ∈ padded width n → startsOffset c = false := by
    intro width n hc
    obtain ⟨k, hk, rfl⟩ := mem_padded hc
    exact (digitChar_facts hk).2.2.1
  simp only [clockChars, fractionText, List.mem_append, List.mem_cons] at h
  rcases h with ((h | rfl | h) | rfl | h) | h
  · exact hdigits h
  · rfl
  · exact hdigits h
  · rfl
  · exact hdigits h
  · split at h
    · cases h
    · rcases List.mem_cons.1 h with rfl | h
      · rfl
      · exact hdigits h

/-- The character at the start of what follows a time of day is not taken for a part of
it. -/
theorem dropWhile_isDigit_of_head {rest : List Char} (h : ∀ c ∈ rest.head?, c.isDigit = false) :
    rest.dropWhile (fun c => c.isDigit) = rest := by
  cases rest with
  | nil => rfl
  | cons c cs => simp [h c rfl]

/-- What is written of a time of day is read back, whatever follows that does not start
with a digit. -/
theorem readClock?_clockChars {hour minute second us : Nat} (hhour : hour < 100)
    (hminute : minute < 100) (hsecond : second < 100) (hus : us < 1000000) (rest : List Char)
    (hrest : ∀ c ∈ rest.head?, c.isDigit = false) :
    readClock? (clockChars hour minute second us ++ rest)
        (clockChars hour minute second us).length =
      some ⟨hour, minute, second, us, atEnd rest⟩ := by
  have hone := readDigits?_padded_of_lt 2 hhour
    (':' :: (padded 2 minute ++ ':' :: (padded 2 second ++ (fractionText us ++ rest))))
  have htwo := readDigits?_padded_of_lt 2 hminute
    (':' :: (padded 2 second ++ (fractionText us ++ rest)))
  have hthree := readDigits?_padded_of_lt 2 hsecond (fractionText us ++ rest)
  have hsix := readDigits?_padded_of_lt 6 hus rest
  have hchars : clockChars hour minute second us ++ rest = padded 2 hour ++
      ':' :: (padded 2 minute ++ ':' :: (padded 2 second ++ (fractionText us ++ rest))) := by
    simp [clockChars]
  rw [length_clockChars, hchars, readClock?]
  -- a fraction of a second is written only if there is one
  by_cases h : us = 0
  · subst h
    simp only [fractionText, if_true, List.nil_append] at hone htwo hthree ⊢
    simp [readNumbers?, hone, htwo, hthree, charAt, Clock.ofNumbers, atEnd]
  · simp only [fractionText, if_neg h, List.cons_append] at hone htwo hthree ⊢
    simp [readNumbers?, readFraction?, hone, htwo, hthree, hsix, charAt, Clock.ofNumbers,
      dropWhile_isDigit_of_head hrest]

/-! ## The offset -/

/-- The hours and minutes of an offset, and its seconds if there are any. -/
theorem offsetText_eq (o : Int) :
    offsetText o = (if o < 0 then '-' else '+') ::
      (if o.natAbs / 1000000 % 60 = 0 ∧ o.natAbs % 1000000 = 0 then
        padded 2 (o.natAbs / 1000000 / 3600) ++ ':' :: padded 2 (o.natAbs / 1000000 / 60 % 60)
      else clockChars (o.natAbs / 1000000 / 3600) (o.natAbs / 1000000 / 60 % 60)
        (o.natAbs / 1000000 % 60) (o.natAbs % 1000000)) := by
  by_cases h : o.natAbs / 1000000 % 60 = 0 ∧ o.natAbs % 1000000 = 0
  · simp [offsetText, h]
  · simp only [offsetText, clockChars, if_neg h, List.cons_append, List.append_assoc]

theorem readClock?_hourMinute {hour minute : Nat} (hhour : hour < 100) (hminute : minute < 100) :
    readClock? (padded 2 hour ++ ':' :: padded 2 minute)
        (padded 2 hour ++ ':' :: padded 2 minute).length = some ⟨hour, minute, 0, 0, true⟩ := by
  have hone := readDigits?_padded_of_lt 2 hhour (':' :: padded 2 minute)
  have htwo := readDigits?_padded_of_lt 2 hminute []
  rw [List.append_nil] at htwo
  simp [readClock?, readNumbers?, hone, htwo, charAt, Clock.ofNumbers]

/-- An offset of less than a day is read back. -/
theorem readOffset?_offsetText {o : Int} (h : o.natAbs < 86400000000) :
    readOffset? (offsetText o) = some o := by
  -- hours, minutes, seconds and microseconds make up the offset's size
  have hsize : ((o.natAbs / 1000000 / 3600 * 3600 + o.natAbs / 1000000 / 60 % 60 * 60 +
      o.natAbs / 1000000 % 60) * 1000000 + o.natAbs % 1000000 : Nat) = o.natAbs := by omega
  have hclock : ∃ clock : Clock, clock.ended = true ∧
      (clock.hour * 3600 + clock.minute * 60 + clock.second) * 1000000 + clock.microsecond =
        o.natAbs ∧
      readClock? (offsetText o).tail (offsetText o).tail.length = some clock := by
    rw [offsetText_eq, List.tail_cons]
    split
    · rename_i hwhole
      rw [hwhole.1, hwhole.2] at hsize
      have hhour : o.natAbs / 1000000 / 3600 < 100 := by omega
      have hminute : o.natAbs / 1000000 / 60 % 60 < 100 := by omega
      exact ⟨⟨o.natAbs / 1000000 / 3600, o.natAbs / 1000000 / 60 % 60, 0, 0, true⟩, by simp only,
        hsize, readClock?_hourMinute hhour hminute⟩
    · have hhour : o.natAbs / 1000000 / 3600 < 100 := by omega
      have hminute : o.natAbs / 1000000 / 60 % 60 < 100 := by omega
      have hsecond : o.natAbs / 1000000 % 60 < 100 := by omega
      have hus : o.natAbs % 1000000 < 1000000 := by omega
      have hread := readClock?_clockChars hhour hminute hsecond hus [] (by simp)
      rw [List.append_nil] at hread
      refine ⟨_, ?_, ?_, hread⟩
      · rfl
      · exact hsize
  obtain ⟨clock, hended, hvalue, hread⟩ := hclock
  have hsign : offsetText o = (if o < 0 then '-' else '+') :: (offsetText o).tail := by
    rw [offsetText_eq, List.tail_cons]
  rw [hsign]
  by_cases hneg : o < 0
  · rw [if_pos hneg, readOffset?]
    · simp only [hread, Option.bind_eq_bind, Option.bind_some, hended, if_true, hvalue]
      congr 1
      omega
    · simp
  · rw [if_neg hneg, readOffset?]
    · simp only [hread, Option.bind_eq_bind, Option.bind_some, hended, if_true, hvalue]
      have hplus : ¬('+' : Char) = '-' := by decide
      rw [if_neg hplus]
      congr 1
      omega
    · simp

/-! ## The whole timestamp -/

/-- What is written of an offset, nothing for a floating timestamp. -/
def offsetChars : Option Int → List Char
  | some o => offsetText o
  | none => []

theorem chars_eq (divider : Char) (t : Timestamp) :
    t.chars divider = t.dateChars ++ divider ::
      (clockChars t.hour t.minute t.second t.microsecond ++ offsetChars t.offset) := by
  cases h : t.offset <;> simp [chars, dateChars, clockChars, offsetChars, h]

theorem offsetChars_head (o : Option Int) :
    ∀ c ∈ (offsetChars o).head?, c.isDigit = false ∧ startsOffset c = true := by
  cases o with
  | none => simp [offsetChars]
  | some o =>
    intro c hc
    rw [offsetChars, offsetText_eq, List.head?_cons, Option.mem_some_iff] at hc
    subst hc
    split <;> exact ⟨by decide, by decide⟩

theorem takeWhile_clockChars (hour minute second us : Nat) (o : Option Int) :
    (clockChars hour minute second us ++ offsetChars o).takeWhile (fun c => !startsOffset c) =
      clockChars hour minute second us := by
  have hstop : (offsetChars o).takeWhile (fun c => !startsOffset c) = [] := by
    cases h : offsetChars o with
    | nil => rfl
    | cons c cs =>
      have hc := (offsetChars_head o c (by simp [h])).2
      simp [hc]
  rw [List.takeWhile_append_of_pos, hstop, List.append_nil]
  intro c hc
  simp [not_startsOffset_of_mem_clockChars hc]

theorem readTime?_clockChars {hour minute second us : Nat} (hhour : hour < 24)
    (hminute : minute < 60) (hsecond : second < 60) (hus : us < 1000000) {o : Option Int}
    (ho : ∀ k ∈ o, k.natAbs < 86400000000) :
    readTime? (clockChars hour minute second us ++ offsetChars o) =
      some (⟨hour, minute, second, us, atEnd (offsetChars o)⟩, o) := by
  have hclock := readClock?_clockChars (show hour < 100 by omega) (show minute < 100 by omega)
    (show second < 100 by omega) hus (offsetChars o) (fun c hc => (offsetChars_head o c hc).1)
  have hsome : (clockChars hour minute second us ++ offsetChars o).isEmpty = false := by
    simp [clockChars, padded_two]
  rw [readTime?, hsome]
  simp only [Bool.false_eq_true, if_false, takeWhile_clockChars, hclock, Option.bind_eq_bind,
    Option.bind_some, List.drop_left]
  cases o with
  | none => simp [offsetChars, atEnd, charAt]
  | some k =>
    have hread := readOffset?_offsetText (ho k rfl)
    have hfull : (offsetText k).isEmpty = false := by
      rw [offsetText_eq]
      rfl
    simp [offsetChars, hfull, hread]

/-- The fields of a valid timestamp are in range. -/
theorem ranges_of_isValid {t : Timestamp} (h : t.isValid = true) :
    t.year < 10000 ∧ t.month < 100 ∧ t.day < 100 ∧ t.hour < 24 ∧ t.minute < 60 ∧
      t.second < 60 ∧ t.microsecond < 1000000 ∧ ∀ o ∈ t.offset, o.natAbs < 86400000000 := by
  have hdays : daysInMonth t.year t.month ≤ 31 := by
    unfold daysInMonth
    split
    · split <;> omega
    · split <;> omega
  simp only [isValid, Bool.and_eq_true, decide_eq_true_eq, Option.all_eq_true] at h
  obtain ⟨⟨⟨⟨⟨⟨⟨hdate, hday⟩, hhour⟩, hminute⟩, hsecond⟩, hus⟩, ho⟩, -⟩ := h
  obtain ⟨⟨⟨⟨-, hyear⟩, -⟩, hmonth⟩, -⟩ := hdate
  refine ⟨by omega, by omega, by omega, hhour, hminute, hsecond, hus, ?_⟩
  intro o hmem
  obtain ⟨hlower, hupper⟩ := ho o hmem
  rw [dayLength] at hlower hupper
  omega

/-- A timestamp with its offset fixed is as valid. -/
theorem fixed_isValid {t : Timestamp} (h : t.isValid = true) : t.fixed.isValid = true := by
  have hranges := (Bool.and_eq_true_iff.1 h).1
  rw [isValid, Bool.and_eq_true]
  exact ⟨hranges, Bool.or_true _⟩

/-- A written timestamp is read back with its offset fixed. -/
theorem ofText?_text {t : Timestamp} (h : t.isValid = true) : ofText? t.text = some t.fixed := by
  obtain ⟨hyear, hmonth, hday, hhour, hminute, hsecond, hus, ho⟩ := ranges_of_isValid h
  have hdate := readDate?_dateChars hyear hmonth hday
  have htime := readTime?_clockChars hhour hminute hsecond hus ho
  -- the date takes ten characters, and one divides it from the time of day
  have htake : (t.chars 'T').take 10 = t.dateChars := by
    rw [chars_eq, List.take_left' (length_dateChars t)]
  have hdrop : (t.chars 'T').drop 11 =
      clockChars t.hour t.minute t.second t.microsecond ++ offsetChars t.offset := by
    rw [chars_eq, List.append_cons]
    exact List.drop_left' (by simp [length_dateChars])
  have hlength : ¬(t.chars 'T').length ≤ 10 := by
    rw [chars_eq, List.length_append, length_dateChars, List.length_cons]
    omega
  have hwhole : dateLength? (t.chars 'T') = some 10 := by
    rw [chars_eq]
    exact dateLength?_dateChars t _
  rw [ofText?, text, String.toList_ofList, ofChars?]
  simp only [hwhole, Option.bind_eq_bind, Option.bind_some, htake, hdate, if_neg hlength, hdrop,
    htime]
  exact if_pos (fixed_isValid h)

/-- Valid timestamps with the same text differ at most in whether they are ambiguous. -/
theorem text_injective {t u : Timestamp} (ht : t.isValid = true) (hu : u.isValid = true)
    (h : t.text = u.text) : t.fixed = u.fixed := by
  have hread := ofText?_text ht
  rw [h, ofText?_text hu] at hread
  exact (Option.some.inj hread).symm

end CardArchive.Timestamp
