import Shelfmark.Json.Basic
import Shelfmark.Text.Property

/-!
# Values inside messages

How a value is spelled inside a message: `None`, `True` and `False`, texts in single quotes unless only double quotes
avoid an escape, lists and mappings in brackets.

* `Json.spelling`: the spelling of a value.
* `Json.plainText`: the spelling of a value that stands by itself, where a text is written as it is.

There is a spelling of every value; that a host refuses to spell one is said in `Json.literal`.
-/

namespace Shelfmark.Json

/-- A hexadecimal number of a fixed width, in lower case. -/
def hexWidth : Nat → Nat → List Char
  | 0, _ => []
  | width + 1, n =>
    let d := n / Nat.pow 16 width % 16
    Char.ofNat (if d < 10 then 48 + d else 87 + d) :: hexWidth width n

/-- One character of a quoted text: escaped if it is the quote, a backslash or invisible. -/
def literalChar (quote : Char) (c : Char) : List Char :=
  if c == quote || c == '\\' then ['\\', c]
  else if c == '\n' then ['\\', 'n']
  else if c == '\r' then ['\\', 'r']
  else if c == '\t' then ['\\', 't']
  else if Text.isVisible c then [c]
  else if c.toNat < 0x100 then '\\' :: 'x' :: hexWidth 2 c.toNat
  else if c.toNat < 0x10000 then '\\' :: 'u' :: hexWidth 4 c.toNat
  else '\\' :: 'U' :: hexWidth 8 c.toNat

/-- A text in quotes: single ones, unless the text holds single quotes and no double ones. -/
def literalText (s : String) : String :=
  let quote := if s.toList.contains '\'' && !s.toList.contains '"' then '"' else '\''
  String.ofList ([quote] ++ s.toList.flatMap (literalChar quote) ++ [quote])

mutual
/-- The spelling of a value inside a message. -/
def spelling : Json → String
  | null => "None"
  | bool b => if b then "True" else "False"
  | int n => toString n
  | float x => Decimal.shortest x
  | str s => literalText s
  | arr [] => "[]"
  | arr (x :: xs) => "[" ++ spelling x ++ spellingItems xs ++ "]"
  | obj [] => "\x7b\x7d"
  | obj ((k, v) :: fs) => "\x7b" ++ literalText k ++ ": " ++ spelling v ++ spellingFields fs ++ "\x7d"

/-- The spelling of the items after the first. -/
def spellingItems : List Json → String
  | [] => ""
  | x :: xs => ", " ++ spelling x ++ spellingItems xs

/-- The spelling of the fields after the first. -/
def spellingFields : List (String × Json) → String
  | [] => ""
  | (k, v) :: fs => ", " ++ literalText k ++ ": " ++ spelling v ++ spellingFields fs
end

/-- The spelling of a value that stands by itself: a text is written as it is. -/
def plainText : Json → String
  | str s => s
  | v => spelling v

end Shelfmark.Json
