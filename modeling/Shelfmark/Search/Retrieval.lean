import Shelfmark.Index.Basic
import Shelfmark.Query.Matching

/-!
# Retrieval

The bookmarks that a free text asks for, found with an index or without.

* `scan`: looks at every bookmark.
* `retrieve`: looks up the regular terms in an index and then looks at the bookmarks found; where the index is of no
  use it looks at every bookmark.
-/

namespace Shelfmark.Search

open Query

/-- The index at hand: none, one that still says which terms it could know but whose search fails, or one that
works. -/
inductive IndexAccess
  | missing
  | failing (isSearchable : String → Bool)
  | ready (ix : Index)

/-- The bookmarks that a free text asks for. -/
def scan (bs : List Bookmark) (q : TextQuery) : List Bookmark := bs.filter q.fits

/-- The bookmarks with one of some ids. -/
def withIds (ids : List String) (bs : List Bookmark) : List Bookmark := bs.filter fun b => ids.contains b.id

/-- The bookmarks that a free text asks for, and whether the index let the search down.  The index is asked only if
there are regular terms and it could know all of them. -/
def retrieve (bs : List Bookmark) (q : TextQuery) (access : IndexAccess) (fields : List String) (boost : Boost) :
    List Bookmark × Bool :=
  if q.regular.isEmpty then (scan bs q, false)
  else
    match access with
    | .missing => (scan bs q, true)
    | .failing isSearchable => (scan bs q, q.regular.all isSearchable)
    | .ready ix =>
      if q.regular.all Index.isSearchable then
        match ix.search q.regular fields boost with
        | .ok hits => (scan (withIds (hits.map Prod.fst) bs) q, false)
        | .error _ => (scan bs q, true)
      else (scan bs q, false)

end Shelfmark.Search
