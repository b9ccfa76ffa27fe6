import Shelfmark.Bookmark.Basic
import Shelfmark.Time.Epoch

/-!
# Bookmarks as records

A record of a bookmark is a JSON object.  Fields with names of two words may be spelled in snake case or in camel
case; missing and empty fields take their defaults.

* `Bookmark.readRecord`: the bookmark of a record.
* `Bookmark.toRecord`: the record of a bookmark, with all 23 fields in snake case.
* `Bookmark.reread`: the bookmark of the record of a bookmark.
-/

namespace Shelfmark

namespace Json

/-- A value that cannot be used as it stands. -/
def typeFault (v : Json) : Fault := .wrongType ("unexpected " ++ v.kindName)

/-- A text; what counts as false is the empty text. -/
def asText (v : Json) : Except Fault String :=
  if v.isTrue then
    match v with
    | .str s => .ok s
    | _ => .error v.typeFault
  else .ok ""

/-- The texts of a list. -/
def textItems : List Json → Except Fault (List String)
  | [] => .ok []
  | .str s :: rest => (textItems rest).map (s :: ·)
  | v :: _ => .error v.typeFault

/-- A list of texts: the texts of an array, the characters of a text, the keys of an object; what counts as false is
the empty list. -/
def asTexts (v : Json) : Except Fault (List String) :=
  if v.isTrue then
    match v with
    | .arr items => textItems items
    | .str s => .ok (s.toList.map fun c => String.ofList [c])
    | .obj fields => .ok (fields.map Prod.fst)
    | _ => .error (.wrongType (Json.literalText v.kindName ++ " object is not iterable"))
  else .ok []

/-- A whole number: what counts as false is zero, a double is cut off toward zero, a text is read. -/
def asCount (v : Json) : Except Fault Int :=
  if v.isTrue then
    match v with
    | .int n => .ok n
    | .bool _ => .ok 1
    | .float x =>
      match Decimal.truncate? x with
      | some n => .ok n
      | none => if x.isNaN then .error .unreadable else .error (.outOfRange "cannot convert float infinity to integer")
    | .str s =>
      match Decimal.readInt? s with
      | some n => .ok n
      | none => .error .unreadable
    | _ => .error v.typeFault
  else .ok 0

/-- A truth value or null. -/
def asFlag (v : Json) : Except Fault (Option Bool) :=
  match v with
  | .null => .ok none
  | .bool b => .ok (some b)
  | _ => .error v.typeFault

/-- A number or null. -/
def asNumber (v : Json) : Except Fault (Option Number) :=
  match v with
  | .null => .ok none
  | .int n => .ok (some (.int n))
  | .float x => .ok (some (.real x))
  | _ => .error v.typeFault

/-- The fields of an object; what counts as false is the empty object. -/
def asObject (v : Json) : Except Fault (List (String × Json)) :=
  if v.isTrue then
    match v with
    | .obj fields => .ok fields
    | .str _ | .arr _ => .error .unreadable
    | _ => .error v.typeFault
  else .ok []

end Json

namespace Bookmark

/-- The field of a record under a name of two words, in snake case if it is there and else in camel case. -/
def pick (record : List (String × Json)) (snake camel : String) : Json :=
  ((Json.lookup snake record).orElse fun _ => Json.lookup camel record).getD .null

/-- Keywords: a list, or one text with commas and blanks between the keywords. -/
def readKeywords (v : Json) : Except Fault (List String) :=
  match v with
  | .str s => .ok ((Text.splitOn (fun c => c == ',' || Text.isBlank c) s.toList).map String.ofList)
  | _ => v.asTexts

/-- The bookmark of the fields of a record. -/
def readFields (r : List (String × Json)) : Except Fault Bookmark := do
  let field := fun key => (Json.lookup key r).getD .null
  let id ← match Json.lookup "id" r with
    | some v => v.display usualRoom
    | none => .error (.missingField "id")
  let url ← (field "url").asText
  let title ← (field "title").asText
  let description ← (field "description").asText
  let domain ← (field "domain").asText
  let category ← (field "category").asText
  let folderPath ← (pick r "folder_path" "folderPath").asText
  let keywords ← readKeywords (field "keywords")
  let tags ← (field "tags").asTexts
  let topics ← (field "topics").asTexts
  let contentType ← (pick r "content_type" "contentType").asText
  let platform ← (field "platform").asText
  let creator ← (field "creator").asText
  let dateAdded ← Timestamp.ofJson (pick r "date_added" "dateAdded")
  let lastAccessed ← Timestamp.ofJson (pick r "last_accessed" "lastAccessed")
  let accessCount ← (pick r "access_count" "accessCount").asCount
  let isAlive ← (pick r "is_alive" "isAlive").asFlag
  let readingTime ← (pick r "reading_time" "readingTime").asNumber
  let qualityScore ← (pick r "quality_score" "qualityScore").asNumber
  let publishedDate ← Timestamp.ofJson (pick r "published_date" "publishedDate")
  let contentSnippet ← (pick r "content_snippet" "contentSnippet").asText
  let platformData ← (pick r "platform_data" "platformData").asObject
  let rawMetadata ← (pick r "raw_metadata" "rawMetadata").asObject
  return {
    id, url, title, description, domain, category, folderPath, keywords, tags := sortedSet tags,
    tags_sorted := pairwise_sortedSet tags, topics, contentType, platform, creator,
    dateAdded := dateAdded.getD Timestamp.epoch, lastAccessed, accessCount, isAlive, readingTime, qualityScore,
    publishedDate, contentSnippet, platformData, rawMetadata }

/-- The bookmark of a record. -/
def readRecord (v : Json) : Except Fault Bookmark :=
  match v with
  | .obj fields => readFields fields
  | _ => .error (.noSuchPart v.kindName "get")

/-- The fields of the record of a bookmark. -/
def toFields (b : Bookmark) : List (String × Json) :=
  [("id", .str b.id),
    ("url", .str b.url),
    ("title", .str b.title),
    ("description", .str b.description),
    ("domain", .str b.domain),
    ("category", .str b.category),
    ("folder_path", .str b.folderPath),
    ("keywords", Json.ofStrings b.keywords),
    ("tags", Json.ofStrings b.tags),
    ("topics", Json.ofStrings b.topics),
    ("content_type", .str b.contentType),
    ("platform", .str b.platform),
    ("creator", .str b.creator),
    ("date_added", b.dateAdded.toJson),
    ("last_accessed", Json.ofOption Timestamp.toJson b.lastAccessed),
    ("access_count", .int b.accessCount),
    ("is_alive", Json.ofOption .bool b.isAlive),
    ("reading_time", Json.ofOption Number.toJson b.readingTime),
    ("quality_score", Json.ofOption Number.toJson b.qualityScore),
    ("published_date", Json.ofOption Timestamp.toJson b.publishedDate),
    ("content_snippet", .str b.contentSnippet),
    ("platform_data", .obj b.platformData),
    ("raw_metadata", .obj b.rawMetadata)]

/-- The record of a bookmark. -/
def toRecord (b : Bookmark) : Json := .obj b.toFields

/-- The bookmark that is read from the record of a bookmark. -/
def reread (b : Bookmark) : Except Fault Bookmark := readRecord b.toRecord

/-- Two bookmarks are equal: their records agree, numbers by value and times as instants. -/
def same (a b : Bookmark) : Bool :=
  let time := fun (s t : Option Timestamp) => s.map Timestamp.instant == t.map Timestamp.instant
  let timeless := fun (x : Bookmark) =>
    Json.obj (x.toFields.filter fun f => !(["date_added", "last_accessed", "published_date"].contains f.1))
  (timeless a).same (timeless b) && time (some a.dateAdded) (some b.dateAdded) &&
    time a.lastAccessed b.lastAccessed && time a.publishedDate b.publishedDate

end Bookmark

end Shelfmark
