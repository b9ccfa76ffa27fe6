import Shelfmark.Text.Case

/-!
# Looking inside texts

* `contains`: a text occurs inside another.
* `words`: the pieces of a text between blanks.
* `squash`: a text with single blanks between its words and none at its ends.
-/

namespace Shelfmark.Text

/-- A list of characters occurs somewhere inside another. -/
def occursIn (part : List Char) : List Char → Bool
  | [] => part.isEmpty
  | c :: rest => part.isPrefixOf (c :: rest) || occursIn part rest

/-- A text occurs somewhere inside another. -/
def contains (text part : String) : Bool := occursIn part.toList text.toList

/-- A text begins with another. -/
def startsWith (text part : String) : Bool := part.toList.isPrefixOf text.toList

/-- The pieces between the characters of a class, without the empty ones; `piece` is the piece begun so far, in
reverse. -/
def splitFrom (p : Char → Bool) (piece : List Char) : List Char → List (List Char)
  | [] => if piece.isEmpty then [] else [piece.reverse]
  | c :: rest =>
    if p c then
      if piece.isEmpty then splitFrom p [] rest else piece.reverse :: splitFrom p [] rest
    else splitFrom p (c :: piece) rest

/-- The pieces of a text between the characters of a class, without the empty ones. -/
def splitOn (p : Char → Bool) (cs : List Char) : List (List Char) := splitFrom p [] cs

/-- The pieces of a text between blanks. -/
def words (cs : List Char) : List (List Char) := splitOn isBlank cs

/-- Pieces joined by a separator. -/
def join (separator : List Char) : List (List Char) → List Char
  | [] => []
  | [p] => p
  | p :: ps => p ++ separator ++ join separator ps

/-- A text with single blanks between its words and none at its ends. -/
def squash (cs : List Char) : List Char := join [' '] (words cs)

/-- Drops the blanks at both ends. -/
def trim (cs : List Char) : List Char := ((cs.dropWhile isBlank).reverse.dropWhile isBlank).reverse

/-- Every character is a blank. -/
def allBlank (s : String) : Bool := s.toList.all isBlank

end Shelfmark.Text
