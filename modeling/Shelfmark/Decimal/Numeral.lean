import Shelfmark.Decimal.Binary64
import Shelfmark.Text.Case

/-!
# Reading numerals

Numerals as people type them: blanks around the number, a sign, digits of any script, and single underscores between
digits.

* `readInt?`: a whole number of at most 4300 digits.
* `readFloat?`: a decimal number, an infinity or no number, rounded to the nearest double.
-/

namespace Shelfmark.Decimal

open Shelfmark.Text

/-- A blank that may stand around a numeral: every blank but the four separators of the control characters. -/
def isPadding (c : Char) : Bool := isBlank c && !(28 ≤ c.toNat && c.toNat ≤ 31)

/-- Drops the characters of a class at both ends. -/
def trimBoth (p : Char → Bool) (cs : List Char) : List Char := ((cs.dropWhile p).reverse.dropWhile p).reverse

/-- The sign in front of a numeral, true for minus, and the rest. -/
def splitSign : List Char → Bool × List Char
  | '+' :: rest => (false, rest)
  | '-' :: rest => (true, rest)
  | cs => (false, cs)

/-- The digits that continue a run, with single underscores between digits, and the rest; nothing if an underscore
is not between two digits. -/
def moreDigits? : List Char → Option (List Nat × List Char)
  | [] => some ([], [])
  | [c] =>
    if c == '_' then none
    else match decimalValue? c with
      | some d => some ([d], [])
      | none => some ([], [c])
  | c :: c' :: rest =>
    if c == '_' then
      match decimalValue? c' with
      | some d => (moreDigits? rest).map fun (ds, r) => (d :: ds, r)
      | none => none
    else match decimalValue? c with
      | some d => (moreDigits? (c' :: rest)).map fun (ds, r) => (d :: ds, r)
      | none => some ([], c :: c' :: rest)

/-- A run of at least one digit with single underscores between digits, and the rest. -/
def digitRun? : List Char → Option (List Nat × List Char)
  | [] => none
  | c :: rest =>
    match decimalValue? c with
    | some d => (moreDigits? rest).map fun (ds, r) => (d :: ds, r)
    | none => none

/-- The number that a list of digits stands for. -/
def ofDigits (ds : List Nat) : Nat := ds.foldl (fun n d => 10 * n + d) 0

/-- The most digits that a whole number may have in text. -/
def maxIntDigits : Nat := 4300

/-- A whole number. -/
def readInt? (s : String) : Option Int :=
  let (negative, cs) := splitSign (trimBoth isPadding s.toList)
  match digitRun? cs with
  | some (ds, []) =>
    if maxIntDigits < ds.length then none
    else some (if negative then -(ofDigits ds : Int) else ofDigits ds)
  | _ => none

/-- The double nearest to `± mantissa * 10 ^ exponent`; exponents far outside the range of doubles are cut off
first. -/
def ofScientific (negative : Bool) (mantissa : Nat) (exponent : Int) : Float :=
  let magnitude := (Nat.toDigits 10 mantissa).length + exponent
  if mantissa == 0 || magnitude < -400 then ofQuotient negative 0 1
  else if 400 < magnitude then ofQuotient negative (Nat.pow 10 400) 1
  else if 0 ≤ exponent then ofQuotient negative (mantissa * Nat.pow 10 exponent.toNat) 1
  else ofQuotient negative mantissa (Nat.pow 10 (-exponent).toNat)

/-- The fraction digits behind a point, if there are any, and the rest. -/
def fractionPart : List Char → Option (List Nat × List Char)
  | '.' :: rest =>
    match rest with
    | c :: _ => if isDecimal c then digitRun? rest else some ([], rest)
    | [] => some ([], [])
  | cs => some ([], cs)

/-- The exponent of a numeral; nothing but the end may follow it. -/
def exponentPart? : List Char → Option Int
  | [] => some 0
  | c :: rest =>
    if c == 'e' || c == 'E' then
      let (negative, cs) := splitSign rest
      match digitRun? cs with
      | some (ds, []) => some (if negative then -(ofDigits ds : Int) else ofDigits ds)
      | _ => none
    else none

/-- A decimal number, "inf", "infinity" or "nan". -/
def readFloat? (s : String) : Option Float :=
  let (negative, cs) := splitSign (trimBoth isPadding s.toList)
  let word := String.ofList (cs.map Char.toLower)
  if word == "inf" || word == "infinity" then some (if negative then -1.0 / 0.0 else 1.0 / 0.0)
  else if word == "nan" then some (0.0 / 0.0)
  else
    let whole? := match cs with
      | '.' :: _ => some ([], cs)
      | _ => digitRun? cs
    match whole? with
    | none => none
    | some (whole, rest) =>
      match fractionPart rest with
      | none => none
      | some (fraction, rest) =>
        if whole.isEmpty && fraction.isEmpty then none
        else
          (exponentPart? rest).map fun e =>
            ofScientific negative (ofDigits (whole ++ fraction)) (e - fraction.length)

end Shelfmark.Decimal
