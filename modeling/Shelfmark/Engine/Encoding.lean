import Shelfmark.Bookmark.Record
import Shelfmark.Engine.Searching

/-!
# Answers as JSON

How the answer of a search is written.
-/

namespace Shelfmark

/-- A free text as it was understood. -/
def Query.TextQuery.toJson (q : Query.TextQuery) : Json :=
  .obj [("positive", Json.ofStrings q.positive), ("negative", Json.ofStrings q.negative),
    ("phrases", Json.ofStrings q.phrases), ("regular", Json.ofStrings q.regular),
    ("regex_patterns", Json.ofStrings (q.patterns.map (·.source))), ("has_modifiers", .bool q.hasModifiers)]

/-- A hit: the bookmark with its score. -/
def Search.Hit.toJson (h : Search.Hit) : Json :=
  .obj (h.bookmark.toFields ++ [("search_score", .float h.score.toFloat)])

namespace Engine

/-- The name of a status. -/
def Status.name : Status → String
  | ok => "ok"
  | degraded => "degraded"
  | failed => "failed"

/-- The answer of a search. -/
def Answer.toJson (a : Answer) : Json :=
  .obj [("results", .arr (a.hits.map (·.toJson))), ("total", .int a.total), ("has_more", .bool a.hasMore),
    ("parsed_query", Json.ofOption Query.TextQuery.toJson a.text),
    ("special_filters", Json.ofOption (fun f => .obj f.toFields) a.special),
    ("stats", Json.ofOption Search.Facets.toJson a.facets), ("status", .str a.status.name),
    ("error", Json.ofOption .str a.message)]

end Engine

end Shelfmark
