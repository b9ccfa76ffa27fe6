import Shelfmark.Chrome.Location
import Shelfmark.Chrome.Tree
import Shelfmark.Engine.Comparing
import Shelfmark.Engine.Encoding
import Shelfmark.Json.Printer
import Shelfmark.Service.Tool

/-!
# Calls of tools

A call names a tool and gives arguments; its reply is a JSON value or a text that says what went wrong.

* `Reply`: the reply to a call.
* `answerCall`: answers a call.
* `importBookmarks`: takes the bookmarks of a file into the store.
-/

namespace Shelfmark

namespace Service

open Engine

/-- What the service has at hand besides the engine: files, the system it runs on, and whether the store is its
own. -/
structure Surroundings where
  files : Files := {}
  system : Chrome.System := {}
  ownsStore : Bool := true
  deriving Inhabited

/-- What a reply holds. -/
inductive Content
  | json (v : Json)
  | text (s : String)

/-- The reply to a call. -/
structure Reply where
  content : Content
  isError : Bool := false

/-- The text of what a reply holds. -/
def Content.render : Content → String
  | json v => v.pretty
  | text s => s

/-- The reply that refuses a call. -/
def refusal (message : String) : Content := .text ("Error: " ++ message)

/-! ## Arguments -/

/-- The arguments of a call. -/
structure Arguments where
  given : Json

namespace Arguments

/-- The text of an argument. -/
def text (a : Arguments) (name : String) : String :=
  match a.given.get name with
  | .str s => s
  | _ => ""

/-- The whole number of an argument. -/
def whole? (a : Arguments) (name : String) : Option Int :=
  match a.given.get name with
  | .int n => some n
  | .float x => Decimal.truncate? x
  | _ => none

/-- The number of an argument. -/
def number? (a : Arguments) (name : String) : Option Number := Number.ofJson? (a.given.get name)

/-- The nearest double of an argument. -/
def double? (a : Arguments) (name : String) : Except Fault (Option Float) :=
  match a.number? name with
  | some n =>
    if n.isBeyondDoubles then .error (.outOfRange "int too large to convert to float") else .ok (some n.toFloat)
  | none => .ok none

/-- An argument that lists are to be cut off at: a double cannot do that, even if it is whole. -/
def checkCut (a : Arguments) (name : String) : Except Fault Unit :=
  match a.given.get name with
  | .float _ => .error (.wrongType "slice indices must be integers or None or have an __index__ method")
  | _ => .ok ()

/-- The truth value of an argument. -/
def flag (a : Arguments) (name : String) (default : Bool) : Bool :=
  match a.given.get? name with
  | some v => v.isTrue
  | none => default

end Arguments

/-! ## Tools -/

/-- Answers a search.  Free text among the filters belongs to the query. -/
def searchCall (a : Arguments) : Task Float Content := do
  let settings ← Task.look (·.settings.search)
  let query := a.text "query"
  let filters := a.text "filters"
  let (active, leftover) := Query.ActiveFilters.parse filters
  let query := if filters.isEmpty then query
    else String.ofList (Text.trim (query ++ " " ++ leftover).toList)
  let sortBy := match a.given.get "sort_by" with
    | .str s => some s
    | _ => none
  let o ← Task.ofExcept (Search.Options.of ((a.whole? "limit").getD settings.defaultLimit)
    ((a.whole? "offset").getD 0) sortBy (a.flag "compute_stats" false) Bookmark.indexedFields settings.boost)
  let answer ← search query (if filters.isEmpty then none else some active) (some o)
  return .json answer.toJson

/-- Finds similar pairs.  A number of pairs that cannot cut off a list is of use only if there is nothing to cut: if
the pairs are cached, or if there are less than two bookmarks. -/
def pairsCall (a : Arguments) : Task Float Content := do
  let threshold := a.number? "threshold"
  let maxPairs := a.whole? "max_pairs"
  let settings ← Task.look (·.settings.similarity)
  Task.ofExcept (threshold.getD settings.threshold).checkText
  let cachedAlready ← cachedPairs (pairsKeyOf (threshold.getD settings.threshold)) (maxPairs.getD settings.maxPairs)
  let bs ← orElse allBookmarks []
  if cachedAlready.isNone && 1 < bs.length then Task.ofExcept (a.checkCut "max_pairs")
  let ps ← findSimilar threshold maxPairs true
  return .json (.arr (ps.map (·.toJson)))

/-- Finds likely duplicates. -/
def scanCall (a : Arguments) : Task Float Content := do
  let settings ← Task.look (·.settings.similarity)
  let least ← Task.ofExcept (a.double? "min_similarity")
  let o ← Task.ofExcept (Similarity.ScanOptions.of (.real (least.getD 0.5))
    ((a.whole? "max_pairs").getD settings.maxPairs) (a.flag "include_cross_domain" true) settings.sampleSize
    settings.sampleSeed)
  let ms ← scanForDuplicates Number.toFloat (some o)
  return .json (.arr (ms.map (·.toJson)))

/-- The last entry for a bookmark with an id. -/
def lastFor? (es : List Chrome.Entry) (id : String) : Option Chrome.Entry :=
  es.reverse.find? fun e => e.bookmark.id == id

/-- The index cannot take a bookmark whose name is no text, and fails at the first one. -/
def checkNames (es : List Chrome.Entry) (bs : List Bookmark) : Except Fault Unit :=
  match bs.findSome? fun b => (lastFor? es b.id).bind (·.oddKind?) with
  | some kind => .error (.noSuchPart kind "lower")
  | none => .ok ()

/-- Takes the bookmarks of some entries into the store and makes the index anew: how many bookmarks were taken in, and
how many the index holds. -/
def importBookmarks {α : Type} (es : List Chrome.Entry) : Task α (Nat × Nat) := do
  let imported ← keepAll (es.map (·.bookmark))
  let indexed ← rebuildChecked (checkNames es)
  return (imported, indexed)

/-- The path of the file to import. -/
def importPath (s : Surroundings) (a : Arguments) (profile : String) : Except Fault String :=
  let path := a.text "path"
  if path.isEmpty then
    let asked := a.text "profile"
    Chrome.bookmarksPath s.files s.system (if asked.isEmpty then profile else asked)
  else (s.files.expandHome path).map Files.plainPath

/-- Imports a bookmarks file. -/
def importCall (s : Surroundings) (a : Arguments) : Task Float Content := do
  if !s.ownsStore then return refusal "Import requires the SQLite bookmark store"
  let profile ← Task.look (·.settings.chromeProfile)
  let now ← Task.look (·.now)
  let room ← Task.look (·.host.room)
  let path ← Task.ofExcept (importPath s a profile)
  match Chrome.readEntries now room s.files path with
  | .ok es =>
    let (imported, indexed) ← importBookmarks es
    return .json (.obj [("imported", .int imported), ("indexed", .int indexed), ("path", .str path)])
  | .error (.noFile path) => return refusal (Fault.noFile path).message
  | .error .malformedText => return refusal Fault.malformedText.message
  | .error e => Task.fail e

/-- A call that asks about one bookmark. -/
def aboutBookmark (a : Arguments) (f : String → Task Float Json) : Task Float Content := do
  let id := a.text "bookmark_id"
  if id.isEmpty then return refusal "'bookmark_id' parameter is required"
  let v ← f id
  return .json v

/-- Runs a tool. -/
def runTool (s : Surroundings) (a : Arguments) : Tool → Task Float Content
  | .healthCheck => do
    let status ← Task.look indexStatusJson
    return .json (.obj [("status", .str "ok"), ("index", status)])
  | .searchBookmarks => searchCall a
  | .findDuplicates => do return .json (← findDuplicates).toJson
  | .findSimilarBookmarks => pairsCall a
  | .findSimilarFuzzy => scanCall a
  | .getSimilarBookmarks => aboutBookmark a fun id => do
    let rs ← similarTo id (a.whole? "limit")
    Task.ofExcept (a.checkCut "limit")
    return .arr (rs.map (·.toJson))
  | .findRelatedBookmarks => aboutBookmark a fun id => do
    let rs ← findRelated id ((a.whole? "limit").getD 10)
    return .arr (rs.map (·.toJson))
  | .rebuildIndex => do return .json (.obj [("indexed", .int (← rebuildIndex))])
  | .importChromeBookmarks => importCall s a

/-- The reply to a call that failed: a refusal is an ordinary reply. -/
def failureReply (e : Fault) : Reply :=
  if e.isRefusal then { content := refusal e.message } else { content := .text e.message, isError := true }

/-- Answers a call; a call without arguments has none. -/
def answerCall (s : Surroundings) (name : String) (given : Json) : Task Float Reply := do
  let given := if given.isTrue then given else .obj []
  match Tool.ofName? name with
  | none => return { content := .text ("Unknown tool: " ++ name), isError := true }
  | some tool =>
    if tool.accepts given then
      match ← (runTool s ⟨given⟩ tool).attempt with
      | .ok content => return { content }
      | .error e => return failureReply e
    else return { content := .text "Input validation error", isError := true }

end Service

end Shelfmark
