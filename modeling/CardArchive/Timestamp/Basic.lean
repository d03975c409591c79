/-!
# Timestamps

A timestamp is a date and a time of day with microseconds, and either floats or
has an offset from universal time. Two timestamps with offsets are compared as
points in time; a floating one can only be compared with another floating one.

A clock that is put forward or back skips or repeats an hour. The offset of a
timestamp within that hour depends on whether the clock as it was before or as it
was after is meant. Such a timestamp is ambiguous: it has one offset, but it does
not equal the same point in time as other clocks give it.

## What this module delivers

* `Timestamp` and `Timestamp.isValid`: the fields and their ranges.
* `Timestamp.text`: the written form.
* `Timestamp.fixed`: what the written form still says.
* `Timestamp.instant`: microseconds since a fixed day, offset taken away.
* `dayNumber` and `dateOfDay`: dates as numbers of days.
-/

set_option autoImplicit false

namespace CardArchive

/-- A date, a time of day, and an offset from universal time in microseconds, which is
ambiguous in an hour that the clock repeats or skips. -/
structure Timestamp where
  year : Nat
  month : Nat
  day : Nat
  hour : Nat
  minute : Nat
  second : Nat
  microsecond : Nat
  offset : Option Int
  ambiguous : Bool
deriving DecidableEq

/-- Whether a year has a leap day. -/
def isLeapYear (y : Nat) : Bool := y % 4 == 0 && (y % 100 != 0 || y % 400 == 0)

/-- Number of days of a month. -/
def daysInMonth (y m : Nat) : Nat :=
  if m = 2 then if isLeapYear y then 29 else 28
  else if m = 4 ∨ m = 6 ∨ m = 9 ∨ m = 11 then 30
  else 31

/-- Number of days before the first day of a year, counted from year 1. -/
def daysBeforeYear (y : Nat) : Nat := (y - 1) * 365 + (y - 1) / 4 - (y - 1) / 100 + (y - 1) / 400

/-- Number of days of a year before the first day of a month. -/
def daysBeforeMonth (y : Nat) : Nat → Nat
  | 0 => 0
  | 1 => 0
  | m + 1 => daysBeforeMonth y m + daysInMonth y m

/-- Number of a day; the first day of year 1 has number 1. -/
def dayNumber (y m d : Nat) : Nat := daysBeforeYear y + daysBeforeMonth y m + d

/-- The month and day of a day of a year, counting from the given month; `fuel`
bounds the number of months. -/
def monthOfDay (y : Nat) : Nat → Nat → Nat → Nat × Nat
  | 0, m, d => (m, d)
  | fuel + 1, m, d =>
    if d ≤ daysInMonth y m then (m, d) else monthOfDay y fuel (m + 1) (d - daysInMonth y m)

/-- Number of days of a year. -/
def daysInYear (y : Nat) : Nat := if isLeapYear y then 366 else 365

/-- The date of a day of a year; a day beyond its end belongs to the next year,
and day zero or less to the year before. -/
def dateOfDay (y : Nat) (d : Int) : Nat × Nat × Nat :=
  if d < 1 then
    let p := monthOfDay (y - 1) 12 1 (d + daysInYear (y - 1)).toNat
    (y - 1, p.1, p.2)
  else if (daysInYear y : Int) < d then
    let p := monthOfDay (y + 1) 12 1 (d - daysInYear y).toNat
    (y + 1, p.1, p.2)
  else
    let p := monthOfDay y 12 1 d.toNat
    (y, p.1, p.2)

/-- Microseconds of a day. -/
def dayLength : Int := 86400000000

namespace Timestamp

/-- Whether every field lies in its range. -/
def isValid (t : Timestamp) : Bool :=
  1 ≤ t.year && t.year ≤ 9999 && 1 ≤ t.month && t.month ≤ 12 && 1 ≤ t.day &&
    t.day ≤ daysInMonth t.year t.month && t.hour < 24 && t.minute < 60 && t.second < 60 &&
    t.microsecond < 1000000 && (t.offset.all fun o => -dayLength < o && o < dayLength) &&
    (t.offset.isSome || !t.ambiguous)

/-- The last `width` decimal digits of a number. -/
def padded : Nat → Nat → List Char
  | 0, _ => []
  | width + 1, n => padded width (n / 10) ++ [Nat.digitChar (n % 10)]

/-- Microseconds as a fraction of a second, nothing if there are none. -/
def fractionText (us : Nat) : List Char := if us = 0 then [] else '.' :: padded 6 us

/-- An offset as written: hours and minutes, and seconds if there are any. -/
def offsetText (o : Int) : List Char :=
  let size := o.natAbs
  let us := size % 1000000
  let seconds := size / 1000000
  (if o < 0 then '-' else '+') :: padded 2 (seconds / 3600) ++ ':' ::
    padded 2 (seconds / 60 % 60) ++
    (if seconds % 60 = 0 ∧ us = 0 then []
      else ':' :: padded 2 (seconds % 60) ++ fractionText us)

/-- The date and the time of day, with `divider` between them. -/
def chars (divider : Char) (t : Timestamp) : List Char :=
  padded 4 t.year ++ '-' :: padded 2 t.month ++ '-' :: padded 2 t.day ++ divider ::
    padded 2 t.hour ++ ':' :: padded 2 t.minute ++ ':' :: padded 2 t.second ++
    fractionText t.microsecond ++
    (match t.offset with
      | some o => offsetText o
      | none => [])

/-- The written form. -/
def text (t : Timestamp) : String := String.ofList (t.chars 'T')

/-- The form shown to readers. -/
def shown (t : Timestamp) : String := String.ofList (t.chars ' ')

/-- The timestamp with its offset as a fixed one. -/
def fixed (t : Timestamp) : Timestamp := { t with ambiguous := false }

/-- Microseconds since the day before year 1, with the offset taken away. -/
def instant (t : Timestamp) : Int :=
  (((dayNumber t.year t.month t.day * 24 + t.hour) * 60 + t.minute) * 60 + t.second : Nat) *
      (1000000 : Int) + t.microsecond - t.offset.getD 0

/-- Whether a timestamp has no offset. -/
def isFloating (t : Timestamp) : Bool := t.offset.isNone

@[simp]
theorem fixed_text (t : Timestamp) : t.fixed.text = t.text := rfl

@[simp]
theorem fixed_instant (t : Timestamp) : t.fixed.instant = t.instant := rfl

@[simp]
theorem fixed_isFloating (t : Timestamp) : t.fixed.isFloating = t.isFloating := rfl

@[simp]
theorem fixed_ambiguous (t : Timestamp) : t.fixed.ambiguous = false := rfl

@[simp]
theorem length_padded (width n : Nat) : (padded width n).length = width := by
  induction width generalizing n with
  | zero => rfl
  | succ w ih => simp [padded, ih]

end Timestamp

end CardArchive
