/-!
# Patterns with wildcards

How keys are looked for in a table: with a pattern in which a percent sign stands for any characters and an underscore
for one, whatever the case of ASCII letters.  A sign behind the escape character stands for itself.  Patterns and texts
are read up to their first NUL.

* `Wildcard.accepts`: a pattern stands for a text.
* `Wildcard.escape`: a text with its wildcards escaped.
* `Wildcard.within`: the pattern for the texts in which a text occurs.
-/

namespace Shelfmark.Wildcard

/-! ## Reading -/

/-- A character as it is read: the last two of the basic plane are no characters and read as the replacement
character. -/
def asRead (c : Char) : Char := if c == '\ufffe' || c == '\uffff' then '\ufffd' else c

/-- The characters of a text as they are read, up to the first NUL. -/
def read (cs : List Char) : List Char := (cs.takeWhile fun c => c != '\x00').map asRead

/-! ## Patterns -/

/-- A sign of a pattern. -/
inductive Sign
  /-- Any characters. -/
  | anything
  /-- Any one character. -/
  | single
  /-- A character, or the same ASCII letter of the other case. -/
  | letter (c : Char)

/-- The character behind which a sign stands for itself. -/
def escapeChar : Char := '\\'

/-- What a character stands for that is not escaped. -/
def Sign.of (c : Char) : Sign := if c == '%' then .anything else if c == '_' then .single else .letter c

/-- The signs of a pattern; nothing if it ends in the escape character. -/
def signs? : List Char → Option (List Sign)
  | [] => some []
  | [c] => if c == escapeChar then none else some [.of c]
  | c :: d :: rest =>
    if c == escapeChar then (signs? rest).map (.letter d :: ·) else (signs? (d :: rest)).map (.of c :: ·)

/-- A text fits from one of its characters on, or from its end. -/
def fitsFrom (fits : List Char → Bool) : List Char → Bool
  | [] => fits []
  | c :: rest => fits (c :: rest) || fitsFrom fits rest

/-- A text fits the signs of a pattern. -/
def fits : List Sign → List Char → Bool
  | [], cs => cs.isEmpty
  | .anything :: signs, cs => fitsFrom (fits signs) cs
  | .single :: _, [] => false
  | .single :: signs, _ :: cs => fits signs cs
  | .letter _ :: _, [] => false
  | .letter c :: signs, d :: cs => c.toLower == d.toLower && fits signs cs

/-- A pattern stands for a text. -/
def accepts (pattern text : List Char) : Bool := (signs? (read pattern)).any fun signs => fits signs (read text)

/-! ## Escaping -/

/-- Puts the escape character in front of a character wherever it stands. -/
def escaping (c : Char) (cs : List Char) : List Char := cs.flatMap fun d => if d == c then [escapeChar, d] else [d]

/-- A text in which the escape character and the wildcards are escaped, one after the other. -/
def escape (cs : List Char) : List Char := escaping '_' (escaping '%' (escaping escapeChar cs))

/-- The pattern for the texts in which a text occurs. -/
def within (part : List Char) : List Char := '%' :: escape part ++ ['%']

end Shelfmark.Wildcard
