import Shelfmark.Similarity.Score

/-!
# Candidates and records

The bookmarks that one bookmark is compared with, and what is kept of the comparison.

* `select`: the candidates for a target, from its domain, its category and the bookmarks that share a keyword.
* `Record`: how alike two bookmarks are, and when that was found out.
* `rankCandidates`: the records of the best candidates.
-/

namespace Shelfmark.Similarity

/-- How many candidates are taken from each source. -/
structure Caps where
  domain : Int := 50
  category : Int := 30
  keyword : Int := 20
  deriving DecidableEq, Repr, Inhabited

/-- The bookmarks whose ids are not among `seen` and do not occur earlier. -/
def freshBookmarks (seen : List String) : List Bookmark → List Bookmark
  | [] => []
  | b :: rest =>
    if seen.contains b.id then freshBookmarks seen rest else b :: freshBookmarks (b.id :: seen) rest

/-- The first bookmarks of a source, without the target. -/
def takeOthers (target : Bookmark) (cap : Int) (source : List Bookmark) : List Bookmark :=
  (source.filter fun b => b.id != target.id).take cap.toNat

/-- Two bookmarks share a keyword, whatever the case of the letters. -/
def shareKeyword (a b : Bookmark) : Bool := (keywordSet a).any (keywordSet b).contains

/-- The candidates for a target, each once, in order of first appearance. -/
def select (target : Bookmark) (sameDomain sameCategory corpus : List Bookmark) (caps : Caps) : List Bookmark :=
  freshBookmarks []
    (takeOthers target caps.domain sameDomain ++ takeOthers target caps.category sameCategory ++
      takeOthers target caps.keyword (corpus.filter (shareKeyword target)))

/-- How alike a bookmark and a related one are, and when that was found out. -/
structure Record (α : Type) where
  bookmarkId : String
  relatedId : String
  score : α
  sameDomain : Bool
  sameCategory : Bool
  computedAt : Timestamp

variable {α : Type} [Scalar α]

/-- The record of a target and a candidate. -/
def recordOf (target : Bookmark) (now : Timestamp) (b : Bookmark) : Record α where
  bookmarkId := target.id
  relatedId := b.id
  score := score target b
  sameDomain := isSameDomain target b
  sameCategory := !target.category.isEmpty && Text.lower target.category == Text.lower b.category
  computedAt := now

/-- The records of the best candidates, the best first, without candidates that are hardly alike. -/
def rankCandidates (target : Bookmark) (candidates : List Bookmark) (topN : Int) (now : Timestamp) :
    List (Record α) :=
  upTo topN (Scalar.descending (·.score)
    ((candidates.map (recordOf target now)).filter fun r => Scalar.lt (Scalar.ratio 1 10) r.score))

end Shelfmark.Similarity
