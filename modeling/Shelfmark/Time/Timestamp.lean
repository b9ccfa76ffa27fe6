import Shelfmark.Time.Date
import Shelfmark.Decimal.Binary64

/-!
# Timestamps

A timestamp is a date, a time of day to the microsecond and an offset from universal time.  Two timestamps are
compared as instants, whatever their offsets.

* `Timestamp.instant`: the microseconds from the beginning of the calendar in universal time.
* `Timestamp.shift?`: the timestamp a number of microseconds later with the same offset.
* `Timestamp.isoText`: the text of a timestamp.
* `Timestamp.ofEpochMicros?`, `Timestamp.seconds`: from and to the time since the beginning of 1970.
-/

namespace Shelfmark

/-- Microseconds of a second. -/
def microsPerSecond : Nat := 1000000

/-- Microseconds of a day. -/
def microsPerDay : Nat := 86400000000

/-- The number is an offset from universal time: zero, or at least a second and less than a day either way. -/
def isOffset (n : Int) : Bool := n == 0 || (microsPerSecond ≤ n.natAbs && n.natAbs < microsPerDay)

/-- A point of time as a local date and time of day with an offset from universal time, in microseconds. -/
structure Timestamp where
  date : Date
  clock : Nat
  offset : Int
  clock_lt : clock < microsPerDay
  offset_valid : isOffset offset = true
  deriving DecidableEq, Repr

namespace Timestamp

/-- The timestamp with a date, a time of day and an offset, if these are in range. -/
def of? (date : Date) (clock : Nat) (offset : Int) : Option Timestamp :=
  if h : clock < microsPerDay then
    if h' : isOffset offset = true then some ⟨date, clock, offset, h, h'⟩ else none
  else none

/-- The microseconds from the beginning of the calendar to the local date and time. -/
def localMicros (t : Timestamp) : Int := ((t.date.dayNumber - 1) * microsPerDay + t.clock : Nat)

/-- The instant in universal time, in microseconds from the beginning of the calendar. -/
def instant (t : Timestamp) : Int := t.localMicros - t.offset

/-- The timestamp with a local time and an offset; nothing outside the calendar. -/
def ofLocal? (micros offset : Int) : Option Timestamp :=
  if micros < 0 then none
  else
    match Date.ofDayNumber? (micros.toNat / microsPerDay + 1) with
    | some date => of? date (micros.toNat % microsPerDay) offset
    | none => none

/-- The timestamp a number of microseconds later, with the same offset; nothing outside the calendar. -/
def shift? (t : Timestamp) (micros : Int) : Option Timestamp := ofLocal? (t.localMicros + micros) t.offset

/-- Not later than. -/
def le (a b : Timestamp) : Bool := a.instant ≤ b.instant

/-- Earlier than. -/
def lt (a b : Timestamp) : Bool := a.instant < b.instant

/-- The first of January 1970. -/
def epochDate : Date := ⟨1970, 1, 1, by decide⟩

/-- The beginning of 1970 in universal time. -/
def epoch : Timestamp := ⟨epochDate, 0, 0, by decide, by decide⟩

/-- The instant of the beginning of 1970. -/
def epochInstant : Int := 62135596800000000

/-- The timestamp in universal time a number of microseconds after the beginning of 1970. -/
def ofEpochMicros? (micros : Int) : Option Timestamp := ofLocal? (epochInstant + micros) 0

/-- The seconds since the beginning of 1970, as the nearest double. -/
def seconds (t : Timestamp) : Float := Decimal.ofIntQuotient (t.instant - epochInstant) microsPerSecond

/-- The rank of a timestamp among the doubles: timestamps whose seconds since 1970 are one double have one rank, and a
greater double has a greater rank. -/
def secondsOrder (t : Timestamp) : Int :=
  let n := t.instant - epochInstant
  let rank : Int := Decimal.magnitudeBits n.natAbs microsPerSecond
  if n < 0 then -rank else rank

/-- The midnight that begins the month, with the same offset. -/
def startOfMonth (t : Timestamp) : Option Timestamp :=
  (Date.of? t.date.year t.date.month 1).bind fun d => of? d 0 t.offset

/-- The midnight that begins the year, with the same offset. -/
def startOfYear (t : Timestamp) : Option Timestamp :=
  (Date.of? t.date.year 1 1).bind fun d => of? d 0 t.offset

/-! ## Text -/

/-- A number with leading zeros up to a width. -/
def padded (width n : Nat) : List Char :=
  let ds := Nat.toDigits 10 n
  List.replicate (width - ds.length) '0' ++ ds

/-- A fraction of a second: a point and six digits, or nothing for zero. -/
def fractionText (micros : Nat) : List Char := if micros == 0 then [] else '.' :: padded 6 micros

/-- A time of day: hours, minutes, seconds, and the fraction if it is not zero. -/
def clockText (micros : Nat) : List Char :=
  let s := micros / microsPerSecond
  padded 2 (s / 3600) ++ ':' :: padded 2 (s / 60 % 60) ++ ':' :: padded 2 (s % 60) ++
    fractionText (micros % microsPerSecond)

/-- An offset: a sign, hours and minutes, and the seconds if they or their fraction are not zero. -/
def offsetText (offset : Int) : List Char :=
  let n := offset.natAbs
  let s := n / microsPerSecond
  (if offset < 0 then '-' else '+') :: padded 2 (s / 3600) ++ ':' :: padded 2 (s / 60 % 60) ++
    (if s % 60 == 0 && n % microsPerSecond == 0 then []
      else ':' :: padded 2 (s % 60) ++ fractionText (n % microsPerSecond))

/-- The characters of the text of a timestamp: date, the letter T, time of day and offset. -/
def isoChars (t : Timestamp) : List Char :=
  padded 4 t.date.year ++ '-' :: padded 2 t.date.month ++ '-' :: padded 2 t.date.day ++
    'T' :: clockText t.clock ++ offsetText t.offset

/-- The text of a timestamp, such as `2024-06-15T12:00:00+00:00`. -/
def isoText (t : Timestamp) : String := String.ofList t.isoChars

end Timestamp

end Shelfmark
