import Shelfmark.Json.Basic
import Shelfmark.Search.Hit

/-!
# Tools

The tools that the service offers, with their arguments.

* `Tool`: the tools, with what they are for.
* `Tool.toJson`: the description of a tool for clients.
* `Tool.accepts`: some arguments are what a tool takes.
-/

namespace Shelfmark.Service

/-- What an argument may be: a text, a whole number, a number, a truth value, or one of some words. -/
inductive ArgumentKind
  | text
  | whole
  | number
  | flag
  | choice (words : List String)

/-- An argument of a tool. -/
structure Argument where
  name : String
  kind : ArgumentKind
  description : Option String := none
  isRequired : Bool := false

/-- The tools of the service. -/
inductive Tool
  | healthCheck
  | searchBookmarks
  | findDuplicates
  | findSimilarBookmarks
  | findSimilarFuzzy
  | getSimilarBookmarks
  | findRelatedBookmarks
  | rebuildIndex
  | importChromeBookmarks
  deriving DecidableEq, Repr

namespace Tool

/-- All tools. -/
def all : List Tool :=
  [healthCheck, searchBookmarks, findDuplicates, findSimilarBookmarks, findSimilarFuzzy, getSimilarBookmarks,
    findRelatedBookmarks, rebuildIndex, importChromeBookmarks]

/-- The name of a tool. -/
def name : Tool → String
  | healthCheck => "health_check"
  | searchBookmarks => "search_bookmarks"
  | findDuplicates => "find_duplicates"
  | findSimilarBookmarks => "find_similar_bookmarks"
  | findSimilarFuzzy => "find_similar_fuzzy"
  | getSimilarBookmarks => "get_similar_bookmarks"
  | findRelatedBookmarks => "find_related_bookmarks"
  | rebuildIndex => "rebuild_index"
  | importChromeBookmarks => "import_chrome_bookmarks"

/-- The tool with a name. -/
def ofName? (s : String) : Option Tool := all.find? fun t => t.name == s

/-- What a tool is for. -/
def description : Tool → String
  | healthCheck => "Report server status and search index statistics."
  | searchBookmarks =>
    "Search bookmarks. The query supports key:value filters (category:, domain:, platform:, author:, repo:, type:, " ++
      "folder:, dead:yes, stale:yes ...), /regex/flags, \"exact phrases\", +required and -excluded terms."
  | findDuplicates => "Find exact-URL duplicates and URLs that are the same after normalization."
  | findSimilarBookmarks => "Find pairs of bookmarks with similar content (TF-IDF cosine similarity)."
  | findSimilarFuzzy => "Find likely duplicates by fuzzy title, URL path and word overlap."
  | getSimilarBookmarks => "Get the stored most-similar bookmarks for one bookmark, recomputing when stale."
  | findRelatedBookmarks => "Rank bookmarks by content similarity to one bookmark."
  | rebuildIndex => "Rebuild the search index from the bookmark store."
  | importChromeBookmarks => "Import bookmarks from a Chrome profile's Bookmarks file and rebuild the index."

/-- The arguments of the tools that ask about one bookmark. -/
def bookmarkArguments : List Argument :=
  [{ name := "bookmark_id", kind := .text, description := some "Bookmark id", isRequired := true },
    { name := "limit", kind := .whole, description := some "Maximum results to return" }]

/-- The arguments of a tool. -/
def arguments : Tool → List Argument
  | healthCheck | findDuplicates | rebuildIndex => []
  | searchBookmarks =>
    [{ name := "query", kind := .text, description := some "Search query" },
      { name := "filters", kind := .text,
        description := some "Structured filters, e.g. 'domain:github.com topic:dev is:stale'" },
      { name := "limit", kind := .whole, description := some "Page size (default 50)" },
      { name := "offset", kind := .whole, description := some "Results to skip" },
      { name := "sort_by", kind := .choice (Search.SortKey.all.map (·.name)) },
      { name := "compute_stats", kind := .flag, description := some "Include facet counts" }]
  | findSimilarBookmarks =>
    [{ name := "threshold", kind := .number, description := some "Minimum similarity (default 0.3)" },
      { name := "max_pairs", kind := .whole, description := some "Maximum pairs (default 100)" }]
  | findSimilarFuzzy =>
    [{ name := "min_similarity", kind := .number, description := some "Minimum score (default 0.5)" },
      { name := "max_pairs", kind := .whole, description := some "Maximum pairs (default 100)" },
      { name := "include_cross_domain", kind := .flag, description := some "Also compare across domains" }]
  | getSimilarBookmarks | findRelatedBookmarks => bookmarkArguments
  | importChromeBookmarks =>
    [{ name := "path", kind := .text, description := some "Path to a Bookmarks file" },
      { name := "profile", kind := .text, description := some "Chrome profile name (default from config)" }]

end Tool

/-! ## Descriptions for clients -/

/-- The name of the type of an argument, and the words it may be. -/
def ArgumentKind.toFields : ArgumentKind → List (String × Json)
  | text => [("type", .str "string")]
  | whole => [("type", .str "integer")]
  | number => [("type", .str "number")]
  | flag => [("type", .str "boolean")]
  | choice words => [("type", .str "string"), ("enum", Json.ofStrings words)]

/-- The description of an argument. -/
def Argument.toJson (a : Argument) : Json :=
  .obj (a.kind.toFields ++ (a.description.map fun d => ("description", .str d)).toList)

/-- The description of the arguments of a tool. -/
def Tool.schema (t : Tool) : Json :=
  let required := (t.arguments.filter (·.isRequired)).map (·.name)
  .obj ([("type", .str "object"), ("properties", .obj (t.arguments.map fun a => (a.name, a.toJson)))] ++
    if required.isEmpty then [] else [("required", Json.ofStrings required)])

/-- The description of a tool. -/
def Tool.toJson (t : Tool) : Json :=
  .obj [("name", .str t.name), ("description", .str t.description), ("inputSchema", t.schema)]

/-! ## Checks -/

/-- A number without a fraction. -/
def isWhole : Json → Bool
  | .int _ => true
  | .float x => !x.isNaN && !x.isInf && x.floor == x
  | _ => false

/-- A value is what an argument may be. -/
def ArgumentKind.accepts (v : Json) : ArgumentKind → Bool
  | text => match v with
    | .str _ => true
    | _ => false
  | whole => isWhole v
  | number => match v with
    | .int _ | .float _ => true
    | _ => false
  | flag => match v with
    | .bool _ => true
    | _ => false
  | choice words => words.any fun w => v.same (.str w)

/-- Some arguments are what a tool takes: required ones are there, and those that are there fit.  Others do not
matter. -/
def Tool.accepts (t : Tool) (given : Json) : Bool :=
  match given with
  | .obj fields =>
    t.arguments.all fun a =>
      match Json.lookup a.name fields with
      | some v => a.kind.accepts v
      | none => !a.isRequired
  | _ => false

end Shelfmark.Service
