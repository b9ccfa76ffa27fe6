import Shelfmark.Scalar

/-!
# Distances

* `editDistance`: the least number of insertions, deletions and replacements that turn one list into another.
* `closeness`: one less the distance of two texts as a part of the longer one.
* `overlap`: the part of the members of two sets that both have.
-/

namespace Shelfmark.Similarity

variable {α : Type}

/-- The distances of a longer text to all ends of another, from those of the text without its first character: `row`
lists the distances to the ends of `bs`, the longest end first. -/
def distanceRow (c : Char) : List Char → List Nat → List Nat
  | b :: bs, p :: q :: row =>
    let rest := distanceRow c bs (q :: row)
    min (if c == b then q else q + 1) (min (p + 1) (rest.headD 0 + 1)) :: rest
  | _, p :: _ => [p + 1]
  | _, [] => []

/-- The distances of a text to all ends of another, the longest end first. -/
def distanceRows (bs : List Char) : List Char → List Nat
  | [] => (List.range (bs.length + 1)).reverse
  | c :: rest => distanceRow c bs (distanceRows bs rest)

/-- The least number of insertions, deletions and replacements of characters that turn one text into another. -/
def editDistance (cs bs : List Char) : Nat := (distanceRows bs cs).headD 0

/-- How close two texts are: one for equal texts, zero for texts that have nothing in common. -/
def closeness [Scalar α] (cs bs : List Char) : α :=
  let longest := max cs.length bs.length
  if longest == 0 then Scalar.one else Scalar.one - Scalar.ratio (editDistance cs bs) longest

/-- The part of the members of two sets that both have; nothing for two empty sets. -/
def overlap [Scalar α] (xs ys : List String) : Option α :=
  if xs.isEmpty && ys.isEmpty then none
  else
    let common := (xs.filter ys.contains).length
    some (Scalar.ratio common (xs.length + ys.length - common))

end Shelfmark.Similarity
