/-!
# Sets of code points

A set of code points is the sorted list of the points where membership flips, beginning outside the set: a point
belongs to the set when the number of flips at or before it is odd.
-/

namespace Shelfmark.Text.RangeSet

/-- The number of entries of a sorted array that are at most `x`, found by halving the interval from `lo` to
`hi`. -/
def countFrom (flips : Array Nat) (x : Nat) : Nat → Nat → Nat → Nat
  | 0, lo, _ => lo
  | fuel + 1, lo, hi =>
    if lo < hi then
      let mid := (lo + hi) / 2
      if flips.getD mid 0 ≤ x then countFrom flips x fuel (mid + 1) hi else countFrom flips x fuel lo mid
    else lo

/-- The number of flips at or before `x`. -/
def flipsUpTo (flips : Array Nat) (x : Nat) : Nat := countFrom flips x flips.size 0 flips.size

/-- Membership: an odd number of flips at or before the point. -/
def contains (flips : Array Nat) (x : Nat) : Bool := flipsUpTo flips x % 2 == 1

/-- The last flip at or before the point: where the run of a member starts. -/
def runStart (flips : Array Nat) (x : Nat) : Nat := flips.getD (flipsUpTo flips x - 1) 0

end Shelfmark.Text.RangeSet
