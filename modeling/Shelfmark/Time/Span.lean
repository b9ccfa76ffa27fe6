import Shelfmark.Number
import Shelfmark.Time.Timestamp

/-!
# Spans of time

A span is a number of microseconds; it may be given in days or in seconds, but not as more than `maxDays` days.

* `microsOfSeconds`: a number of seconds as a span.
* `Timestamp.daysBefore`, `Timestamp.secondsAfter`: the time some span earlier or later.
-/

namespace Shelfmark

/-- The most days that a span of time may have. -/
def maxDays : Nat := 999999999

/-- A number of days that a span of time may have. -/
def checkDays (days : Int) : Except Fault Unit :=
  if maxDays < days.natAbs then
    .error (.outOfRange ("days=" ++ toString days ++ "; must have magnitude <= " ++ toString maxDays))
  else .ok ()

/-- A number of seconds as microseconds; a half goes to the even microsecond. -/
def microsOfSeconds : Number → Except Fault Int
  | .int n => (checkDays (n.fdiv 86400)).map fun _ => n * microsPerSecond
  | .real x =>
    match Decimal.truncate? x with
    | none => if x.isNaN then .error .unreadable else .error (.outOfRange "cannot convert float infinity to integer")
    | some whole =>
      (checkDays (whole.fdiv 86400)).map fun _ =>
        whole * microsPerSecond + (Decimal.scaleRound? ((x - Decimal.ofInt whole) * 1000000) 1).getD 0

namespace Timestamp

/-- The time a number of microseconds later, if it lies in the calendar. -/
def shifted (t : Timestamp) (micros : Int) : Except Fault Timestamp :=
  match t.shift? micros with
  | some t => .ok t
  | none => .error (.outOfRange "date value out of range")

/-- The time a number of days earlier. -/
def daysBefore (t : Timestamp) (days : Int) : Except Fault Timestamp := do
  checkDays days
  t.shifted (-(days * microsPerDay))

/-- The time a number of seconds later. -/
def secondsAfter (t : Timestamp) (seconds : Number) : Except Fault Timestamp := do
  t.shifted (← microsOfSeconds seconds)

end Timestamp

end Shelfmark
