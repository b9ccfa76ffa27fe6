import Shelfmark.Bookmark.Basic
import Shelfmark.Text.Words
import Shelfmark.Url

/-!
# Duplicates

Bookmarks with one address, and bookmarks whose addresses differ only in what seldom matters.

* `groupBy`: the members of a list by a key.
* `duplicates`: the groups of duplicates among some bookmarks.
-/

namespace Shelfmark.Similarity

/-- The members of a list by a key, for the members that have one: the groups in the order of their first members,
and the members of a group as they stood. -/
def groupBy {β : Type} (key : β → Option String) (xs : List β) : List (List β) :=
  let keyed := xs.filterMap fun x => (key x).map (·, x)
  (Text.distinct (keyed.map Prod.fst)).map fun k => (keyed.filter fun e => e.1 == k).map Prod.snd

/-- The groups of duplicates. -/
structure DuplicateReport where
  /-- Groups with one address. -/
  exact : List (List Bookmark) := []
  /-- Groups with several addresses that are the same in canonical form. -/
  similar : List (List Bookmark) := []
  deriving Inhabited

/-- The number of groups. -/
def DuplicateReport.total (r : DuplicateReport) : Nat := r.exact.length + r.similar.length

/-- The groups of duplicates among some bookmarks. -/
def duplicates (bs : List Bookmark) : DuplicateReport where
  exact := (groupBy (fun b => some b.url) bs).filter fun g => 1 < g.length
  similar := (groupBy (fun b => Url.canonical? b.url) bs).filter fun g =>
    1 < (Text.distinct (g.map (·.url))).length

end Shelfmark.Similarity
