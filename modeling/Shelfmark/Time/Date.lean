/-!
# Calendar dates

Dates of the proleptic Gregorian calendar from the year 1 to the year 9999, and their day numbers; day 1 is the first
of January of the year 1.

* `Date.of?`: the date with a given year, month and day, if there is one.
* `Date.dayNumber`, `Date.ofDayNumber?`: the number of a date and the date with a number.
* `Date.ofWeek?`: the date with a given week of the year and day of the week.
-/

namespace Shelfmark

/-- A year with a 29th of February. -/
def isLeapYear (y : Nat) : Bool := y % 4 == 0 && (y % 100 != 0 || y % 400 == 0)

/-- The number of days of a month. -/
def daysInMonth (y m : Nat) : Nat :=
  match m with
  | 2 => if isLeapYear y then 29 else 28
  | 4 | 6 | 9 | 11 => 30
  | _ => 31

/-- The numbers form a date of the calendar. -/
def isDate (y m d : Nat) : Bool :=
  1 ≤ y && y ≤ 9999 && 1 ≤ m && m ≤ 12 && 1 ≤ d && d ≤ daysInMonth y m

/-- A date of the calendar. -/
structure Date where
  year : Nat
  month : Nat
  day : Nat
  valid : isDate year month day = true
  deriving DecidableEq, Repr

namespace Date

/-- The date with a year, a month and a day. -/
def of? (y m d : Nat) : Option Date :=
  if h : isDate y m d = true then some ⟨y, m, d, h⟩ else none

/-- The number of days before the first of January of a year. -/
def daysBeforeYear (y : Nat) : Nat := (y - 1) * 365 + (y - 1) / 4 - (y - 1) / 100 + (y - 1) / 400

/-- The number of days of a year before a month. -/
def daysBeforeMonth (y m : Nat) : Nat := (List.range (m - 1)).foldl (fun n k => n + daysInMonth y (k + 1)) 0

/-- The number of a date; the first of January of the year 1 has number 1. -/
def dayNumber (d : Date) : Nat := daysBeforeYear d.year + daysBeforeMonth d.year d.month + d.day

/-- The year that holds the day with an offset from the first of January of the year 1. -/
def yearOf (offset : Nat) : Nat :=
  let n400 := offset / 146097
  let r400 := offset % 146097
  let n100 := min 3 (r400 / 36524)
  let r100 := r400 - n100 * 36524
  let n4 := r100 / 1461
  let r4 := r100 % 1461
  let n1 := min 3 (r4 / 365)
  n400 * 400 + n100 * 100 + n4 * 4 + n1 + 1

/-- The month and the day of the month of a day of the year, counted from zero, searching from month `m`. -/
def monthDay (y : Nat) : Nat → Nat → Nat → Nat × Nat
  | 0, m, r => (m, r + 1)
  | fuel + 1, m, r => if r < daysInMonth y m then (m, r + 1) else monthDay y fuel (m + 1) (r - daysInMonth y m)

/-- The date with a day number. -/
def ofDayNumber? (n : Nat) : Option Date :=
  if n == 0 then none
  else
    let y := yearOf (n - 1)
    let (m, d) := monthDay y 11 1 (n - 1 - daysBeforeYear y)
    of? y m d

/-- The largest day number, that of the last of December of the year 9999. -/
def lastDayNumber : Nat := 3652059

/-- The number of the Monday that begins the first week of a year: the week that holds the year's first Thursday. -/
def firstMonday (y : Nat) : Int :=
  let first : Int := daysBeforeYear y + 1
  let weekday := (first + 6) % 7
  let monday := first - weekday
  if weekday > 3 then monday + 7 else monday

/-- The year has 53 weeks: it begins on a Thursday, or on a Wednesday and is a leap year. -/
def hasLongCount (y : Nat) : Bool :=
  let weekday := (daysBeforeYear y + 1) % 7
  weekday == 4 || (weekday == 3 && isLeapYear y)

/-- The date of a day, from 1 for Monday to 7, in a week of a year. -/
def ofWeek? (y week day : Nat) : Option Date :=
  if 1 ≤ y && y ≤ 9999 && 1 ≤ week && (week ≤ 52 || (week == 53 && hasLongCount y)) && 1 ≤ day && day ≤ 7 then
    let n := firstMonday y + ((week - 1) * 7 + (day - 1) : Nat)
    if n < 1 then none else ofDayNumber? n.toNat
  else none

end Date

end Shelfmark
