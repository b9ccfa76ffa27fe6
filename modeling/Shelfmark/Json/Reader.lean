import Shelfmark.Decimal.Numeral
import Shelfmark.Fault

/-!
# Reading JSON

`Json.parse` reads a text that holds one value and blanks around it.  Whole numbers are exact, other numbers become
the nearest double, the words for infinities and for what is no number are accepted, and of several fields with one
key the last value wins in the place of the first.  What is nested deeper than there is room, a whole number with too
many digits, and half of a surrogate pair that stands alone are not read.
-/

namespace Shelfmark.Json

/-- The blanks between the tokens of JSON. -/
def isSpace (c : Char) : Bool := c == ' ' || c == '\n' || c == '\r' || c == '\t'

/-- Drops the blanks at the front. -/
def skipSpace (cs : List Char) : List Char := cs.dropWhile isSpace

/-- The value of a hexadecimal digit. -/
def hexValue? (c : Char) : Option Nat :=
  if c.isDigit then some (c.toNat - 48)
  else if 'a' ≤ c && c ≤ 'f' then some (c.toNat - 87)
  else if 'A' ≤ c && c ≤ 'F' then some (c.toNat - 55)
  else none

/-- The number that four hexadecimal digits stand for. -/
def hex4? (a b c d : Char) : Option Nat := do
  return ((← hexValue? a) * 16 + (← hexValue? b)) * 256 + ((← hexValue? c) * 16 + (← hexValue? d))

/-- The character of a short escape. -/
def shortEscape? (c : Char) : Option Char :=
  match c with
  | '"' => some '"'
  | '\\' => some '\\'
  | '/' => some '/'
  | 'b' => some (Char.ofNat 8)
  | 'f' => some (Char.ofNat 12)
  | 'n' => some '\n'
  | 'r' => some '\r'
  | 't' => some '\t'
  | _ => none

/-- Puts a character in front of the text that was read. -/
def withChar (c : Char) (r : Except Fault (List Char × List Char)) : Except Fault (List Char × List Char) :=
  r.map fun (cs, rest) => (c :: cs, rest)

/-- The rest of a text up to its closing quote, and what follows the quote.  `pending` is the first half of a
surrogate pair that has just been read. -/
def textBody (pending : Option Nat) : List Char → Except Fault (List Char × List Char)
  | [] => .error .malformedText
  | '"' :: rest => if pending.isSome then .error .loneSurrogate else .ok ([], rest)
  | '\\' :: 'u' :: a :: b :: c :: d :: rest =>
    match hex4? a b c d with
    | none => .error .malformedText
    | some n =>
      match pending with
      | some high =>
        if 0xdc00 ≤ n && n < 0xe000 then
          withChar (Char.ofNat (0x10000 + (high - 0xd800) * 1024 + (n - 0xdc00))) (textBody none rest)
        else .error .loneSurrogate
      | none =>
        if 0xd800 ≤ n && n < 0xdc00 then textBody (some n) rest
        else if 0xdc00 ≤ n && n < 0xe000 then .error .loneSurrogate
        else withChar (Char.ofNat n) (textBody none rest)
  | '\\' :: c :: rest =>
    match shortEscape? c with
    | none => .error .malformedText
    | some e => if pending.isSome then .error .loneSurrogate else withChar e (textBody none rest)
  | c :: rest =>
    if c.toNat < 32 || c == '\\' then .error .malformedText
    else if pending.isSome then .error .loneSurrogate
    else withChar c (textBody none rest)

/-- The whole part of a number: a zero, or digits that do not begin with one. -/
def wholePart? (cs : List Char) : Option (List Char × List Char) :=
  match cs with
  | '0' :: rest => some (['0'], rest)
  | c :: _ => if c.isDigit then some (cs.takeWhile Char.isDigit, cs.dropWhile Char.isDigit) else none
  | [] => none

/-- The fraction of a number, if digits follow the point. -/
def fractionPart (cs : List Char) : List Char × List Char :=
  match cs with
  | '.' :: c :: rest =>
    if c.isDigit then ((c :: rest).takeWhile Char.isDigit, (c :: rest).dropWhile Char.isDigit) else ([], cs)
  | _ => ([], cs)

/-- The exponent of a number, if digits follow its mark. -/
def exponentPart (cs : List Char) : Option Int × List Char :=
  match cs with
  | e :: rest =>
    if e == 'e' || e == 'E' then
      let (negative, ds) := Decimal.splitSign rest
      let digits := ds.takeWhile Char.isDigit
      if digits.isEmpty then (none, cs)
      else
        let n : Int := Decimal.ofDigits (digits.map fun c => c.toNat - 48)
        (some (if negative then -n else n), ds.dropWhile Char.isDigit)
    else (none, cs)
  | [] => (none, cs)

/-- A number at the front of a text. -/
def number (cs : List Char) : Except Fault (Json × List Char) :=
  let (negative, body) := match cs with
    | '-' :: rest => (true, rest)
    | _ => (false, cs)
  match wholePart? body with
  | none => .error .malformedText
  | some (whole, rest) =>
    let (fraction, rest) := fractionPart rest
    let (exponent, rest) := exponentPart rest
    let value := fun (ds : List Char) => Decimal.ofDigits (ds.map fun c => c.toNat - 48)
    if fraction.isEmpty && exponent.isNone then
      if Decimal.maxIntDigits < whole.length then .error .numberTooLong
      else .ok (int (if negative then -(value whole : Int) else value whole), rest)
    else
      .ok (float (Decimal.ofScientific negative (value (whole ++ fraction))
        (exponent.getD 0 - fraction.length)), rest)

/-- The rest of a text behind a word at its front. -/
def word? (w : String) (cs : List Char) : Option (List Char) :=
  if w.toList.isPrefixOf cs then some (cs.drop w.length) else none

/-- A word that stands for a value, at the front of a text. -/
def wordValue (cs : List Char) : Except Fault (Json × List Char) :=
  match word? "null" cs, word? "true" cs, word? "false" cs with
  | some r, _, _ => .ok (null, r)
  | _, some r, _ => .ok (bool true, r)
  | _, _, some r => .ok (bool false, r)
  | _, _, _ =>
    match word? "NaN" cs, word? "Infinity" cs, word? "-Infinity" cs with
    | some r, _, _ => .ok (float (0.0 / 0.0), r)
    | _, some r, _ => .ok (float (1.0 / 0.0), r)
    | _, _, some r => .ok (float (-1.0 / 0.0), r)
    | _, _, _ => number cs

mutual
/-- A value at the front of a text that begins with no blank.  Each array and each object around it takes one level of
the room. -/
def value : Nat → Nat → List Char → Except Fault (Json × List Char)
  | 0, _, _ => .error .malformedText
  | fuel + 1, room, cs =>
    match cs with
    | '"' :: rest => (textBody none rest).map fun (s, r) => (str (String.ofList s), r)
    | '[' :: rest =>
      match room with
      | 0 => .error .tooDeep
      | room + 1 =>
        match skipSpace rest with
        | ']' :: r => .ok (arr [], r)
        | rest => (items fuel room rest).map fun (xs, r) => (arr xs, r)
    | '{' :: rest =>
      match room with
      | 0 => .error .tooDeep
      | room + 1 =>
        match skipSpace rest with
        | '}' :: r => .ok (obj [], r)
        | rest => (fields fuel room [] rest).map fun (fs, r) => (obj fs, r)
    | _ => wordValue cs

/-- The items of an array up to its closing bracket. -/
def items : Nat → Nat → List Char → Except Fault (List Json × List Char)
  | 0, _, _ => .error .malformedText
  | fuel + 1, room, cs =>
    match value fuel room cs with
    | .error e => .error e
    | .ok (x, rest) =>
      match skipSpace rest with
      | ']' :: r => .ok ([x], r)
      | ',' :: rest => (items fuel room (skipSpace rest)).map fun (xs, r) => (x :: xs, r)
      | _ => .error .malformedText

/-- The fields of an object up to its closing brace, after the fields `done`. -/
def fields : Nat → Nat → List (String × Json) → List Char → Except Fault (List (String × Json) × List Char)
  | 0, _, _, _ => .error .malformedText
  | fuel + 1, room, done, cs =>
    match cs with
    | '"' :: rest =>
      match textBody none rest with
      | .error e => .error e
      | .ok (key, rest) =>
        match skipSpace rest with
        | ':' :: rest =>
          match value fuel room (skipSpace rest) with
          | .error e => .error e
          | .ok (v, rest) =>
            let done := setField (String.ofList key) v done
            match skipSpace rest with
            | '}' :: r => .ok (done, r)
            | ',' :: rest => fields fuel room done (skipSpace rest)
            | _ => .error .malformedText
        | _ => .error .malformedText
    | _ => .error .malformedText
end

/-- The value that a text holds, with blanks around it, or the first thing in the text that is not read. -/
def parse (room : Nat) (s : String) : Except Fault Json :=
  let cs := s.toList
  match value (2 * cs.length + 1) room (skipSpace cs) with
  | .ok (v, rest) => if (skipSpace rest).isEmpty then .ok v else .error .malformedText
  | .error e => .error e

end Shelfmark.Json
