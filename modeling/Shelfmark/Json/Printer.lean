import Shelfmark.Json.Basic

/-!
# Writing JSON

`Json.pretty` writes a value on several lines, two blanks deeper for each level, with everything outside ASCII
escaped; doubles are written with the shortest digits that read back.  `Json.compact` writes it on one line.
-/

namespace Shelfmark.Json

/-- A hexadecimal digit in lower case. -/
def hexDigit (n : Nat) : Char := Char.ofNat (if n < 10 then 48 + n else 87 + n)

/-- A unit of sixteen bits as an escape of four hexadecimal digits. -/
def escapeUnit (n : Nat) : List Char :=
  ['\\', 'u', hexDigit (n / 4096 % 16), hexDigit (n / 256 % 16), hexDigit (n / 16 % 16), hexDigit (n % 16)]

/-- One character of a text: the usual short escapes, visible ASCII as it is, and everything else as one or two
escaped units. -/
def escapeChar (c : Char) : List Char :=
  if c == '"' then ['\\', '"']
  else if c == '\\' then ['\\', '\\']
  else if c == '\n' then ['\\', 'n']
  else if c == '\r' then ['\\', 'r']
  else if c == '\t' then ['\\', 't']
  else if c.toNat == 12 then ['\\', 'f']
  else if c.toNat == 8 then ['\\', 'b']
  else if 32 ≤ c.toNat && c.toNat < 127 then [c]
  else if c.toNat < 0x10000 then escapeUnit c.toNat
  else
    let n := c.toNat - 0x10000
    escapeUnit (0xd800 + n / 1024) ++ escapeUnit (0xdc00 + n % 1024)

/-- A text in double quotes. -/
def quote (s : String) : String := "\"" ++ String.ofList (s.toList.flatMap escapeChar) ++ "\""

/-- A double as a number, with the customary words for infinities and for what is no number. -/
def renderFloat (x : Float) : String :=
  if x.isNaN then "NaN" else if x.isInf then (if x < 0 then "-Infinity" else "Infinity") else Decimal.shortest x

/-- A line break and the blanks of a level. -/
def newline (level : Nat) : String := "\n" ++ String.ofList (List.replicate (2 * level) ' ')

mutual
/-- A value on several lines, beginning at a level of nesting. -/
def prettyAt (level : Nat) : Json → String
  | null => "null"
  | bool b => if b then "true" else "false"
  | int n => toString n
  | float x => renderFloat x
  | str s => quote s
  | arr [] => "[]"
  | arr (x :: xs) =>
    "[" ++ newline (level + 1) ++ prettyAt (level + 1) x ++ prettyItems (level + 1) xs ++ newline level ++ "]"
  | obj [] => "\x7b\x7d"
  | obj ((k, v) :: fs) =>
    "\x7b" ++ newline (level + 1) ++ quote k ++ ": " ++ prettyAt (level + 1) v ++ prettyFields (level + 1) fs ++
      newline level ++ "\x7d"

/-- The items after the first, each behind a comma on its own line. -/
def prettyItems (level : Nat) : List Json → String
  | [] => ""
  | x :: xs => "," ++ newline level ++ prettyAt level x ++ prettyItems level xs

/-- The fields after the first, each behind a comma on its own line. -/
def prettyFields (level : Nat) : List (String × Json) → String
  | [] => ""
  | (k, v) :: fs => "," ++ newline level ++ quote k ++ ": " ++ prettyAt level v ++ prettyFields level fs
end

/-- A value on several lines. -/
def pretty (v : Json) : String := prettyAt 0 v

mutual
/-- A value on one line. -/
def compact : Json → String
  | null => "null"
  | bool b => if b then "true" else "false"
  | int n => toString n
  | float x => renderFloat x
  | str s => quote s
  | arr [] => "[]"
  | arr (x :: xs) => "[" ++ compact x ++ compactItems xs ++ "]"
  | obj [] => "\x7b\x7d"
  | obj ((k, v) :: fs) => "\x7b" ++ quote k ++ ": " ++ compact v ++ compactFields fs ++ "\x7d"

/-- The items after the first, each behind a comma. -/
def compactItems : List Json → String
  | [] => ""
  | x :: xs => ", " ++ compact x ++ compactItems xs

/-- The fields after the first, each behind a comma. -/
def compactFields : List (String × Json) → String
  | [] => ""
  | (k, v) :: fs => ", " ++ quote k ++ ": " ++ compact v ++ compactFields fs
end

end Shelfmark.Json
