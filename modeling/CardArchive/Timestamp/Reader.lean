import CardArchive.Timestamp.Basic

/-!
# Reading timestamps

A written timestamp starts with a date, as year, month and day or as year, week
and weekday, with or without hyphens. Any one character divides it from the time
of day, which may stop after the hours or the minutes and may have a fraction of
any length. An offset may follow.

## What this module delivers

* `Timestamp.ofText?`: the timestamp of a text.
* `readDate?`, `readClock?`, `readOffset?`: the parts of one.
-/

set_option autoImplicit false

namespace CardArchive.Timestamp

/-- The number of exactly `count` digits at the start of a text, and the rest. -/
def readDigits? : Nat → Nat → List Char → Option (Nat × List Char)
  | 0, n, cs => some (n, cs)
  | count + 1, n, c :: cs =>
    if c.isDigit then readDigits? count (10 * n + (c.toNat - 48)) cs else none
  | _ + 1, _, [] => none

/-! ## Dates -/

/-- The character at a place. -/
def charAt (cs : List Char) (i : Nat) : Char := cs[i]?.getD '\x00'

/-- Length of the date when year and week stand without hyphens: the digits after
the week may be a weekday or belong to the time. -/
def plainWeekLength (cs : List Char) : Nat :=
  let digits := ((cs.drop 7).takeWhile fun c => c.isDigit).length
  let stop := 7 + digits
  if stop < 9 then stop else if stop % 2 = 0 then 7 else 8

/-- Length of the date when the week stands after a hyphen. -/
def hyphenWeekLength? (cs : List Char) : Option Nat :=
  if cs.length < 8 then none
  else if 8 < cs.length ∧ charAt cs 8 = '-' then
    if cs.length = 9 then none
    else if 10 < cs.length ∧ (charAt cs 10).isDigit then some 8
    else some 10
  else some 8

/-- Length of the date at the start of a text. -/
def dateLength? (cs : List Char) : Option Nat :=
  if cs.length < 7 then none
  else if cs.length = 7 then some 7
  else if charAt cs 4 = '-' then
    if charAt cs 5 = 'W' then hyphenWeekLength? cs else some 10
  else if charAt cs 4 = 'W' then some (plainWeekLength cs)
  else some 8

/-- Weekday of the first day of a year, Monday being zero. -/
def firstWeekday (y : Nat) : Nat := (dayNumber y 1 1 + 6) % 7

/-- Day of the year on which its first week starts; it may lie in the year before. -/
def firstMonday (y : Nat) : Int :=
  let w := firstWeekday y
  if w ≤ 3 then 1 - (w : Int) else 8 - (w : Int)

/-- Whether a year has a week 53. -/
def hasLongYear (y : Nat) : Bool :=
  firstWeekday y == 3 || (firstWeekday y == 2 && isLeapYear y)

/-- The date of a weekday of a week. -/
def dateOfWeek? (y week day : Nat) : Option (Nat × Nat × Nat) :=
  if y < 1 ∨ 9999 < y ∨ week < 1 ∨ 53 < week ∨ (week = 53 ∧ !hasLongYear y) ∨ day < 1 ∨ 7 < day then
    none
  else some (dateOfDay y (firstMonday y + ((week - 1) * 7 + (day - 1) : Nat)))

/-- The text after a hyphen that has to be there if `needed`. -/
def afterHyphen? (needed : Bool) (cs : List Char) : Option (List Char) :=
  if needed then
    match cs with
    | '-' :: rest => some rest
    | _ => none
  else some cs

/-- The date written by the whole text. -/
def readDate? (cs : List Char) : Option (Nat × Nat × Nat) := do
  let (year, rest) ← readDigits? 4 0 cs
  let hyphens := rest.head? = some '-'
  let rest := if hyphens then rest.tail else rest
  match rest with
  | 'W' :: rest =>
    let (week, rest) ← readDigits? 2 0 rest
    if rest.isEmpty then dateOfWeek? year week 1
    else
      let rest ← afterHyphen? hyphens rest
      let (day, _) ← readDigits? 1 0 rest
      dateOfWeek? year week day
  | rest =>
    let (month, rest) ← readDigits? 2 0 rest
    let rest ← afterHyphen? hyphens rest
    let (day, rest) ← readDigits? 2 0 rest
    if rest.isEmpty then some (year, month, day) else none

/-! ## Times of day -/

/-- A time of day; `ended` says whether the text ended with it. -/
structure Clock where
  hour : Nat
  minute : Nat
  second : Nat
  microsecond : Nat
  ended : Bool

/-- The clock of the numbers read so far. -/
def Clock.ofNumbers (numbers : List Nat) (microsecond : Nat) (ended : Bool) : Clock :=
  ⟨numbers.getD 0 0, numbers.getD 1 0, numbers.getD 2 0, microsecond, ended⟩

/-- Whether a text has ended. -/
def atEnd (cs : List Char) : Bool := charAt cs 0 == '\x00'

/-- The clock whose fraction of a second starts here; `left` characters remain of
the time of day, and only six digits count. -/
def readFraction? (numbers : List Nat) (cs : List Char) (left : Nat) : Option Clock := do
  let count := min left 6
  let (n, rest) ← readDigits? count 0 cs
  let microsecond := if count = 0 then 0 else n * Nat.pow 10 (6 - count)
  some (.ofNumbers numbers microsecond (atEnd (rest.dropWhile fun c => c.isDigit)))

/-- Reads up to `fields` numbers of two digits. The first divider decides whether
colons stand between them; a point or a comma starts the fraction. -/
def readNumbers? (colons : Option Bool) (numbers : List Nat) :
    Nat → List Char → Nat → Option Clock
  | 0, cs, left => readFraction? numbers cs left
  | fields + 1, cs, left => do
    let (n, rest) ← readDigits? 2 0 cs
    let numbers := numbers ++ [n]
    let c := charAt rest 0
    let colons := colons.getD (c == ':')
    if left ≤ 3 then some (.ofNumbers numbers 0 (c == '\x00'))
    else if colons && c == ':' then
      readNumbers? (some colons) numbers fields rest.tail (left - 3)
    else if c == '.' || c == ',' then readFraction? numbers rest.tail (left - 3)
    else if !colons then readNumbers? (some colons) numbers fields rest (left - 2)
    else none

/-- The time of day in the first `left` characters of a text. -/
def readClock? (cs : List Char) (left : Nat) : Option Clock := readNumbers? none [] 3 cs left

/-- A character that starts an offset. -/
def startsOffset (c : Char) : Bool := c == '+' || c == '-' || c == 'Z'

/-- The offset written by a text, if it starts with one. -/
def readOffset? (cs : List Char) : Option Int :=
  match cs with
  | 'Z' :: rest => if atEnd rest then some 0 else none
  | sign :: rest => do
    let clock ← readClock? rest rest.length
    if clock.ended then
      let seconds := clock.hour * 3600 + clock.minute * 60 + clock.second
      let size : Int := (seconds * 1000000 + clock.microsecond : Nat)
      some (if sign = '-' then -size else size)
    else none
  | [] => none

/-- The time of day and the offset written by a text. -/
def readTime? (cs : List Char) : Option (Clock × Option Int) := do
  if cs.isEmpty then none
  else
    -- the time of day ends where an offset starts
    let front := cs.takeWhile fun c => !startsOffset c
    let rest := cs.drop front.length
    let clock ← readClock? cs front.length
    if rest.isEmpty then if clock.ended then some (clock, none) else none
    else
      let offset ← readOffset? rest
      some (clock, some offset)

/-- The timestamp of a text. A date alone means midnight. -/
def ofChars? (cs : List Char) : Option Timestamp := do
  let length ← dateLength? cs
  let (year, month, day) ← readDate? (cs.take length)
  let (clock, offset) ←
    if cs.length ≤ length then some (⟨0, 0, 0, 0, true⟩, none)
    else readTime? (cs.drop (length + 1))
  let t : Timestamp :=
    ⟨year, month, day, clock.hour, clock.minute, clock.second, clock.microsecond, offset, false⟩
  if t.isValid then some t else none

/-- The timestamp of a text. -/
def ofText? (s : String) : Option Timestamp := ofChars? s.toList

end CardArchive.Timestamp
