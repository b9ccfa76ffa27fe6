import Shelfmark.Bookmark.Basic
import Shelfmark.Time.Epoch

/-!
# Active filters

The filters that are set beside the query, such as those of a side bar.

* `DateRange`, `NumberRange`: ranges, the ends in order.
* `ActiveFilters`: the filters.
-/

namespace Shelfmark.Query

/-- A range of times. -/
structure DateRange where
  first : Timestamp
  last : Timestamp
  ordered : first.le last = true

/-- The range between two times, if they are in order. -/
def DateRange.of (first last : Timestamp) : Except Fault DateRange :=
  if h : first.le last = true then .ok ⟨first, last, h⟩ else .error .dateRangeReversed

/-- The time lies in the range. -/
def DateRange.contains (r : DateRange) (t : Timestamp) : Bool := r.first.le t && t.le r.last

/-- A least and a greatest number in the wrong order. -/
def endsReversed : Option Number → Option Number → Bool
  | some low, some high => high.lt low
  | _, _ => false

/-- A range of numbers, either end of which may be open. -/
structure NumberRange where
  low : Option Number
  high : Option Number
  ordered : endsReversed low high = false

/-- The range between two numbers, if they are in order; `name` is the name of the filter. -/
def NumberRange.of (name : String) (low high : Option Number) : Except Fault NumberRange :=
  if h : endsReversed low high = false then .ok ⟨low, high, h⟩ else .error (.rangeReversed name)

/-- The number lies in the range; a missing number counts as zero. -/
def NumberRange.contains (r : NumberRange) (x : Option Number) : Bool :=
  let x := x.getD (.int 0)
  r.low.all (fun low => !x.lt low) && r.high.all (fun high => !high.lt x)

/-- The filters beside a query; of each list one member has to fit, an empty list fits everything. -/
structure ActiveFilters where
  domains : List String := []
  folders : List String := []
  topics : List String := []
  types : List String := []
  creators : List String := []
  tags : List String := []
  deadLinks : Bool := false
  stale : Bool := false
  dateRange : Option DateRange := none
  readingTime : Option NumberRange := none
  qualityScore : Option NumberRange := none
  hasPublishedDate : Option Bool := none

end Shelfmark.Query
