import Shelfmark.Text.Case

/-!
# Letters without regard to case

When may two characters stand for each other in a pattern that ignores case?  When they have the same lowercase, or
their lowercases are among the few that are written alike in uppercase (`alsoCased`).

* `foldPoint`: the lowercase of a code point.
* `sameLetter`: a code point of a pattern stands for a character of a text.
* `inFoldedRange`: some code point of a range stands for a character of a text.
-/

namespace Shelfmark.Pattern

/-- Lowercase code points with an uppercase in common. -/
def caseClasses : Array (Nat × List Nat) := #[
  (105, [305]), (115, [383]), (181, [956]), (305, [105]), (383, [115]), (837, [953, 8126]), (912, [8147]), (944,
  [8163]), (946, [976]), (949, [1013]), (952, [977]), (953, [837, 8126]), (954, [1008]), (956, [181]), (960, [982]),
  (961, [1009]), (962, [963]), (963, [962]), (966, [981]), (976, [946]), (977, [952]), (981, [966]), (982, [960]),
  (1008, [954]), (1009, [961]), (1013, [949]), (1074, [7296]), (1076, [7297]), (1086, [7298]), (1089, [7299]),
  (1090, [7300, 7301]), (1098, [7302]), (1123, [7303]), (7296, [1074]), (7297, [1076]), (7298, [1086]), (7299,
  [1089]), (7300, [1090, 7301]), (7301, [1090, 7300]), (7302, [1098]), (7303, [1123]), (7304, [42571]), (7777,
  [7835]), (7835, [7777]), (8126, [837, 953]), (8147, [912]), (8163, [944]), (42571, [7304]), (64261, [64262]),
  (64262, [64261])]

/-- The further lowercase code points that share an uppercase with one. -/
def alsoCased (n : Nat) : List Nat :=
  match caseClasses.find? (fun p => p.1 == n) with
  | some (_, others) => others
  | none => []

/-- The lowercase of a code point.  With `ascii` only the letters of ASCII have case. -/
def foldPoint (ascii : Bool) (n : Nat) : Nat :=
  if n < 128 then (if 65 ≤ n && n ≤ 90 then n + 32 else n)
  else if ascii then n
  else Text.mapRuns Text.lowerRuns n

/-- The code point `n` of a pattern stands for the code point `c` of a text when case is ignored. -/
def sameLetter (ascii : Bool) (n c : Nat) : Bool :=
  let lower := foldPoint ascii c
  let mine := foldPoint ascii n
  lower == mine || (!ascii && (alsoCased mine).contains lower)

/-- Some code point from `low` to `high` has the lowercase `n`. -/
def rangeFoldsTo (ascii : Bool) (low high n : Nat) : Bool :=
  (low ≤ n && n ≤ high && foldPoint ascii n == n) ||
    (97 ≤ n && n ≤ 122 && low ≤ n - 32 && n - 32 ≤ high) ||
    (!ascii && Text.lowerRuns.any fun (first, last, step, image) =>
      128 ≤ first && image ≤ n && (n - image) % step == 0 && first + (n - image) ≤ last &&
        low ≤ first + (n - image) && first + (n - image) ≤ high)

/-- Some code point from `low` to `high` stands for the code point `c` of a text when case is ignored. -/
def inFoldedRange (ascii : Bool) (low high c : Nat) : Bool :=
  let lower := foldPoint ascii c
  rangeFoldsTo ascii low high lower ||
    (!ascii && (alsoCased lower).any fun other => rangeFoldsTo ascii low high other)

end Shelfmark.Pattern
