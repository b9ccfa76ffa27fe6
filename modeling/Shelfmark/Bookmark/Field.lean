import Shelfmark.Bookmark.Basic

/-!
# Fields by name

An index may cover any part of a bookmark that is a text.  `Bookmark.fieldText` is the text under a name.
-/

namespace Shelfmark.Bookmark

/-- A part that is no text: it counts as empty if nothing is in it, and cannot be cut into words otherwise. -/
def noText (empty : Bool) (kind : String) : Except Fault String :=
  if empty then .ok "" else .error (.noSuchPart kind "lower")

/-- The text of a field. -/
def fieldText (b : Bookmark) (name : String) : Except Fault String :=
  match name with
  | "id" => .ok b.id
  | "url" => .ok b.url
  | "title" => .ok b.title
  | "description" => .ok b.description
  | "domain" => .ok b.domain
  | "category" => .ok b.category
  | "folder_path" => .ok b.folderPath
  | "keywords" => .ok b.keywordText
  | "content_type" => .ok b.contentType
  | "platform" => .ok b.platform
  | "creator" => .ok b.creator
  | "content_snippet" => .ok b.contentSnippet
  | "repo_name" => b.repoName
  | "creator_key" => .ok b.creatorKey
  | "tags" => noText b.tags.isEmpty "frozenset"
  | "topics" => noText b.topics.isEmpty "tuple"
  | "date_added" => noText false "datetime.datetime"
  | "last_accessed" => noText b.lastAccessed.isNone "datetime.datetime"
  | "published_date" => noText b.publishedDate.isNone "datetime.datetime"
  | "access_count" => noText (b.accessCount == 0) "int"
  | "is_alive" => noText (b.isAlive != some true) "bool"
  | "reading_time" => noText (b.readingTime.all Number.isZero) "float"
  | "quality_score" => noText (b.qualityScore.all Number.isZero) "float"
  | "platform_data" => noText b.platformData.isEmpty "dict"
  | "raw_metadata" => noText b.rawMetadata.isEmpty "dict"
  | "extra" =>
    match b.extra with
    | .str s => .ok s
    | v => noText (!v.isTrue) v.kindName
  | "is_enriched" => noText (!b.isEnriched) "bool"
  | "has_image" => b.hasImage.bind fun found => noText (!found) "bool"
  | _ => .error (.noSuchPart "Bookmark" name)

/-- The fields that an index covers unless it is told otherwise. -/
def indexedFields : List String := ["title", "url", "description", "keywords", "category", "domain"]

end Shelfmark.Bookmark
