import Shelfmark.Time.Iso
import Shelfmark.Number

/-!
# Timestamps in records

A record may give a time as an ISO text or as milliseconds since the beginning of 1970.

* `Timestamp.ofSeconds`: the timestamp a number of seconds after the beginning of 1970.
* `Timestamp.ofJson`: the timestamp that a value of a record stands for; null and the empty text stand for none.
-/

namespace Shelfmark.Timestamp

/-- The timestamp a number of seconds after the beginning of 1970, to the nearest microsecond; a half goes to the
even microsecond. -/
def ofSeconds (x : Float) : Except Fault Timestamp :=
  if x.isNaN then .error .unreadable
  else
    match Decimal.truncate? x with
    | none => .error (.outOfRange "timestamp out of range for platform time_t")
    | some whole =>
      let fraction := (x - Decimal.ofInt whole) * 1000000
      let micros := (Decimal.scaleRound? fraction 1).getD 0
      let total := whole * 1000000 + micros
      let seconds := total.fdiv 1000000
      if seconds < -9223372036854775808 || 9223372036854775807 < seconds then
        .error (.outOfRange "timestamp out of range for platform time_t")
      else if seconds < -67768040609740800 || 67768036191676799 < seconds then .error .beyondClock
      else
        match ofEpochMicros? total with
        | some t => .ok t
        | none => .error .unreadable

/-- The timestamp a number of milliseconds after the beginning of 1970. -/
def ofMillis : Number → Except Fault Timestamp
  | .int n =>
    let x := Decimal.ofIntQuotient n 1000
    if x.isInf then .error (.outOfRange "integer division result too large for a float") else ofSeconds x
  | .real x => ofSeconds (x / 1000)

/-- The timestamp of a text. -/
def ofText (s : String) : Except Fault Timestamp :=
  match parseIso? s with
  | some t => .ok t
  | none => .error .unreadable

/-- The timestamp that a value of a record stands for: none for null and the empty text, milliseconds for a number
or a truth value, and otherwise the text of the value is read. -/
def ofJson : Json → Except Fault (Option Timestamp)
  | .null => .ok none
  | .str s => if s.isEmpty then .ok none else (ofText s).map some
  | .int n => (ofMillis (.int n)).map some
  | .float x => (ofMillis (.real x)).map some
  | .bool b => (ofMillis (.int (if b then 1 else 0))).map some
  | v => (v.display usualRoom).bind fun s => (ofText s).map some

/-- A timestamp as a value of a record. -/
def toJson (t : Timestamp) : Json := .str t.isoText

end Shelfmark.Timestamp
