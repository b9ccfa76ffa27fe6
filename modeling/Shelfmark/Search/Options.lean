import Shelfmark.Index.Basic
import Shelfmark.Search.Hit

/-!
# Options of a search

How a search is paged, ordered and scored.  `Options.of` refuses what makes no sense.
-/

namespace Shelfmark.Search

/-- The options of a search. -/
structure Options where
  limit : Nat := 50
  offset : Nat := 0
  sortBy : Option SortKey := none
  computeStats : Bool := false
  fields : List String := Bookmark.indexedFields
  boost : Boost := defaultBoost
  limit_pos : 0 < limit := by decide
  deriving Inhabited

/-- The order with a name, or none. -/
def readSortKey : Option String → Except Fault (Option SortKey)
  | none => .ok none
  | some name =>
    match SortKey.ofName? name with
    | some key => .ok (some key)
    | none => .error (.unknownSort name)

/-- The options with some values, if the limit is positive, the offset is not negative, and the order and the fields
are known. -/
def Options.of (limit offset : Int) (sortBy : Option String) (computeStats : Bool) (fields : List String)
    (boost : Boost) : Except Fault Options :=
  if h : limit < 1 then .error .limitNotPositive
  else if offset < 0 then .error .offsetNegative
  else do
    let key ← readSortKey sortBy
    let unknown := fields.filter fun f => !Bookmark.indexedFields.contains f
    if unknown.isEmpty then
      return { limit := limit.toNat, offset := offset.toNat, sortBy := key, computeStats, fields, boost,
               limit_pos := by omega }
    else .error (.unknownFields (sortedSet unknown))

/-- The members of a list on a page. -/
def Options.page {α : Type} (o : Options) (xs : List α) : List α := (xs.drop o.offset).take o.limit

end Shelfmark.Search
