import Shelfmark.Bookmark.Record
import Shelfmark.Similarity.Candidates
import Shelfmark.Similarity.Content
import Shelfmark.Similarity.Duplicates
import Shelfmark.Similarity.Scan

/-!
# Results as JSON

How pairs, related bookmarks, groups of duplicates, records and matches are written; pairs can also be read back.
-/

namespace Shelfmark.Similarity

/-- A pair with its bookmarks. -/
def SimilarPair.toJson (p : SimilarPair Float) : Json :=
  .obj [("bookmark1", p.first.toRecord), ("bookmark2", p.second.toRecord), ("similarity", .float p.similarity),
    ("common_category", .bool p.commonCategory), ("same_domain", .bool p.sameDomain)]

/-- A part of a pair. -/
def SimilarPair.part (v : Json) (name : String) : Except Fault Json :=
  match v.get? name with
  | some w => .ok w
  | none => .error (.missingField name)

/-- A number of a pair. -/
def SimilarPair.number (v : Json) : Except Fault Float :=
  match Number.ofJson? v with
  | some n => .ok n.toFloat
  | none => .error v.typeFault

/-- The pair that a value describes. -/
def SimilarPair.ofJson (v : Json) : Except Fault (SimilarPair Float) := do
  let first ← Bookmark.readRecord (← part v "bookmark1")
  let second ← Bookmark.readRecord (← part v "bookmark2")
  let similarity ← number (← part v "similarity")
  let commonCategory := (← part v "common_category").isTrue
  let sameDomain := (← part v "same_domain").isTrue
  return { first, second, similarity, commonCategory, sameDomain }

/-- A related bookmark. -/
def Related.toJson (r : Related Float) : Json :=
  .obj [("bookmark", r.bookmark.toRecord), ("similarity", .float r.similarity), ("same_domain", .bool r.sameDomain),
    ("same_category", .bool r.sameCategory)]

/-- A group of duplicates of a kind. -/
def groupJson (kind : String) (bs : List Bookmark) : Json :=
  .obj [("type", .str kind), ("bookmarks", .arr (bs.map Bookmark.toRecord))]

/-- The groups of duplicates. -/
def DuplicateReport.toJson (r : DuplicateReport) : Json :=
  .obj [("exact", .arr (r.exact.map (groupJson "exact"))), ("similar", .arr (r.similar.map (groupJson "similar"))),
    ("total", .int r.total)]

/-- A record. -/
def Record.toJson (r : Record Float) : Json :=
  .obj [("bookmark_id", .str r.bookmarkId), ("related_bookmark_id", .str r.relatedId), ("score", .float r.score),
    ("same_domain", .bool r.sameDomain), ("same_category", .bool r.sameCategory),
    ("computed_at", r.computedAt.toJson)]

/-- A match with its bookmarks. -/
def Match.toJson (m : Match Float) : Json :=
  .obj [("bookmark1", m.first.toRecord), ("bookmark2", m.second.toRecord), ("score", .float m.score),
    ("same_domain", .bool m.sameDomain),
    ("breakdown", .obj (m.breakdown.map fun (s, x) => (s.name, .float x)))]

end Shelfmark.Similarity
