import Shelfmark.Query.Matching

/-!
# Hits

A hit is a bookmark with a score.

* `relevance`: the score of a bookmark for a free text.
* `SortKey`: the orders in which hits may be listed.
* `sortHits`: the hits in an order; hits that the order does not tell apart stay as they were.
-/

namespace Shelfmark.Search

open Query

/-- A bookmark with a score. -/
structure Hit where
  bookmark : Bookmark
  score : Number := .int 0
  deriving Inhabited

/-! ## Scores -/

/-- The score if a condition holds, and else nothing. -/
def points (n : Nat) (holds : Bool) : Nat := if holds then n else 0

/-- What a term counts for a bookmark whose parts are given in lower case. -/
def termScore (title domain category description url term : String) : Nat :=
  points 10 (Text.contains title term) + points 5 (Text.startsWith title term) +
    points 5 (Text.contains domain term) + points 4 (Text.contains category term) +
    points 2 (Text.contains description term) + points 1 (Text.contains url term)

/-- What a pattern counts for a bookmark. -/
def patternScore (b : Bookmark) (p : Pattern) : Nat :=
  points 8 (p.searchIn b.title) + points 3 (p.searchIn b.url) + points 2 (p.searchIn b.description)

/-- The score of a bookmark for a free text: what its terms, phrases and patterns count. -/
def relevance (b : Bookmark) (q : TextQuery) : Nat :=
  let score := termScore (Text.lower b.title) (Text.lower b.domain) (Text.lower b.category)
    (Text.lower b.description) (Text.lower b.url)
  let terms := (q.positive ++ q.phrases ++ q.regular).foldl (fun n t => n + score t) 0
  q.patterns.foldl (fun n p => n + patternScore b p) terms

/-- The hits of some bookmarks for a free text. -/
def rank (bs : List Bookmark) (q : TextQuery) : List Hit := bs.map fun b => ⟨b, .int (relevance b q)⟩

/-! ## Orders -/

/-- The orders in which hits may be listed. -/
inductive SortKey
  | relevance
  | dateDesc
  | dateAsc
  | titleAsc
  | titleDesc
  | domainAsc
  deriving DecidableEq, Repr

namespace SortKey

/-- All orders. -/
def all : List SortKey := [relevance, dateDesc, dateAsc, titleAsc, titleDesc, domainAsc]

/-- The name of an order. -/
def name : SortKey → String
  | relevance => "relevance"
  | dateDesc => "date_desc"
  | dateAsc => "date_asc"
  | titleAsc => "title_asc"
  | titleDesc => "title_desc"
  | domainAsc => "domain_asc"

/-- The order with a name. -/
def ofName? (s : String) : Option SortKey := all.find? fun k => k.name == s

/-- The first hit may stand before the second.  By relevance, the newer of two hits with one score comes first, as
far as doubles tell their seconds apart. -/
def le : SortKey → Hit → Hit → Bool
  | relevance, a, b =>
    b.score.lt a.score ||
      (!a.score.lt b.score && b.bookmark.dateAdded.secondsOrder ≤ a.bookmark.dateAdded.secondsOrder)
  | dateDesc, a, b => b.bookmark.dateAdded.le a.bookmark.dateAdded
  | dateAsc, a, b => a.bookmark.dateAdded.le b.bookmark.dateAdded
  | titleAsc, a, b => Text.caseFold a.bookmark.title ≤ Text.caseFold b.bookmark.title
  | titleDesc, a, b => Text.caseFold b.bookmark.title ≤ Text.caseFold a.bookmark.title
  | domainAsc, a, b => Text.caseFold a.bookmark.domain ≤ Text.caseFold b.bookmark.domain

end SortKey

/-- The hits in an order; hits that the order does not tell apart stay as they were. -/
def sortHits (key : SortKey) (hits : List Hit) : List Hit := hits.mergeSort key.le

end Shelfmark.Search
