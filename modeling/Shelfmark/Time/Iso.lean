import Shelfmark.Time.Timestamp

/-!
# Reading timestamps

The texts of dates and times of ISO 8601 that are understood: a calendar date or a week date, in the extended or the
basic form, then any one character, a time of day and an offset.

* `Timestamp.parseIso?`: the timestamp of a text; without an offset the time is universal.
-/

namespace Shelfmark.Timestamp

/-- An ASCII digit's value. -/
def digit? (c : Char) : Option Nat := if c.isDigit then some (c.toNat - 48) else none

/-- A number of exactly `count` digits at the front, and the rest. -/
def number? : Nat → List Char → Option (Nat × List Char)
  | 0, cs => some (0, cs)
  | _ + 1, [] => none
  | count + 1, c :: rest =>
    match digit? c, number? count rest with
    | some d, some (n, r) => some (d * Nat.pow 10 count + n, r)
    | _, _ => none

/-- How many characters the date takes, judged by what stands behind the year. -/
def dateLength? (cs : List Char) : Option Nat :=
  let n := cs.length
  if n == 7 then some 7
  else if cs[4]? == some '-' then
    if cs[5]? == some 'W' then
      if 8 < n && cs[8]? == some '-' then
        if n == 9 then none
        else if 10 < n && (cs[10]?.any Char.isDigit) then some 8
        else some 10
      else some 8
    else some 10
  else if cs[4]? == some 'W' then
    let stop := 7 + ((cs.drop 7).takeWhile Char.isDigit).length
    if stop < 9 then some stop else if stop % 2 == 0 then some 7 else some 8
  else some 8

/-- The day of a week date behind its week: none given means Monday. -/
def weekDay? (dashed : Bool) (cs : List Char) : Option Nat :=
  match cs with
  | [] => some 1
  | c :: rest =>
    if dashed then if c == '-' then (number? 1 rest).map Prod.fst else none
    else (number? 1 cs).map Prod.fst

/-- A calendar date or a week date that takes the whole text. -/
def parseDate? (cs : List Char) : Option Date :=
  match number? 4 cs with
  | none => none
  | some (year, rest) =>
    let dashed := rest.head? == some '-'
    let rest := if dashed then rest.drop 1 else rest
    match rest with
    | 'W' :: rest =>
      match number? 2 rest with
      | none => none
      | some (week, rest) => (weekDay? dashed rest).bind fun day => Date.ofWeek? year week day
    | _ =>
      match number? 2 rest with
      | none => none
      | some (month, rest) =>
        if dashed && rest.head? != some '-' then none
        else
          match number? 2 (if dashed then rest.drop 1 else rest) with
          | some (day, []) => Date.of? year month day
          | _ => none

/-- A time of day in microseconds, as hours, minutes, seconds and a fraction may add up to, and whether characters
are left behind it. -/
structure ClockReading where
  hours : Nat
  minutes : Nat
  seconds : Nat
  micros : Nat
  complete : Bool
  deriving DecidableEq, Repr

/-- The whole of a reading in microseconds. -/
def ClockReading.total (r : ClockReading) : Nat :=
  ((r.hours * 60 + r.minutes) * 60 + r.seconds) * microsPerSecond + r.micros

/-- The fraction of a second: at most six digits count, further digits are passed over. -/
def readFraction? (h m s : Nat) (cs : List Char) : Option ClockReading :=
  let count := min 6 cs.length
  match number? count cs with
  | none => none
  | some (n, rest) => some ⟨h, m, s, n * Nat.pow 10 (6 - count), (rest.dropWhile Char.isDigit).isEmpty⟩

/-- What follows one part of a time of day. -/
inductive AfterPart
  | stop (complete : Bool)
  | next (rest : List Char)
  | fraction (rest : List Char)
  | malformed

/-- Looks behind one part of a time of day: the parts are all parted by colons or not at all, and a point or comma
begins the fraction. -/
def afterPart (colons : Bool) : List Char → AfterPart
  | [] => .stop true
  | [c] => if c.toNat < 128 then .stop false else .malformed
  | c :: rest =>
    if colons && c == ':' then .next rest
    else if c == '.' || c == ',' then .fraction rest
    else if !colons then .next (c :: rest)
    else .malformed

/-- The last part of a time of day and its fraction. -/
def readSeconds? (colons : Bool) (h m : Nat) (cs : List Char) : Option ClockReading :=
  match number? 2 cs with
  | none => none
  | some (s, rest) =>
    match afterPart colons rest with
    | .stop complete => some ⟨h, m, s, 0, complete⟩
    | .next rest => readFraction? h m s rest
    | .fraction rest => readFraction? h m s rest
    | .malformed => none

/-- The second part of a time of day and what follows. -/
def readMinutes? (colons : Bool) (h : Nat) (cs : List Char) : Option ClockReading :=
  match number? 2 cs with
  | none => none
  | some (m, rest) =>
    match afterPart colons rest with
    | .stop complete => some ⟨h, m, 0, 0, complete⟩
    | .next rest => readSeconds? colons h m rest
    | .fraction rest => readFraction? h m 0 rest
    | .malformed => none

/-- A time of day: hours, then minutes and seconds and a fraction as far as given. -/
def readClock? (cs : List Char) : Option ClockReading :=
  match number? 2 cs with
  | none => none
  | some (h, rest) =>
    match afterPart (rest.head? == some ':') rest with
    | .stop complete => some ⟨h, 0, 0, 0, complete⟩
    | .next rest' => readMinutes? (rest.head? == some ':') h rest'
    | .fraction rest => readFraction? h 0 0 rest
    | .malformed => none

/-- A character that begins an offset. -/
def beginsZone (c : Char) : Bool := c == '+' || c == '-' || c == 'Z'

/-- The offset that a text behind a time of day gives, in microseconds; the empty text gives none, and an offset
shorter than a second is none at all. -/
def readZone? : List Char → Option (Option Int)
  | [] => some none
  | 'Z' :: rest => if rest.isEmpty then some (some 0) else none
  | sign :: rest =>
    match readClock? rest with
    | some r =>
      if !r.complete then none
      else if r.total < microsPerSecond then some (some 0)
      else some (some (if sign == '-' then -(r.total : Int) else r.total))
    | none => none

/-- A time of day in range, in microseconds, and its offset if it has one.  With an offset behind it, characters
left over between the two are passed over. -/
def parseClock? (cs : List Char) : Option (Nat × Option Int) :=
  let body := cs.takeWhile (fun c => !beginsZone c)
  let zone := cs.dropWhile (fun c => !beginsZone c)
  match readClock? body, readZone? zone with
  | some r, some z =>
    if (z.isSome || r.complete) && r.hours < 24 && r.minutes < 60 && r.seconds < 60 then some (r.total, z) else none
  | _, _ => none

/-- The timestamp of a text in ISO 8601, in universal time if it has no offset. -/
def parseIso? (s : String) : Option Timestamp :=
  let cs := s.toList
  if cs.length < 7 then none
  else
    match dateLength? cs with
    | none => none
    | some n =>
      match parseDate? (cs.take n), cs.drop n with
      | none, _ => none
      | some date, [] => of? date 0 0
      | some date, _ :: time =>
        match parseClock? time with
        | some (clock, zone) => of? date clock (zone.getD 0)
        | none => none

end Shelfmark.Timestamp
