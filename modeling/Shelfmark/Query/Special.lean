import Shelfmark.Json.Basic
import Shelfmark.Query.Scan

/-!
# Special filters

A query may hold filters of the form `key:value`.  They are taken out of the query, and what remains is free text.

* `FilterKey`: the keys.
* `SpecialFilters`: the filters of a query.
* `SpecialFilters.parse`: the filters of a query and its remaining text.
-/

namespace Shelfmark.Query

/-- The keys of the special filters. -/
inductive FilterKey
  | category
  | domain
  | platform
  | channel
  | author
  | repo
  | type
  | hasImage
  | playlist
  | accessed
  | stale
  | enriched
  | dead
  | folder
  deriving DecidableEq, Repr

/-- What the values of a key look like: a text in lower case, a text as it is written, or yes and no. -/
inductive ValueKind
  | lowered
  | verbatim
  | yesNo
  deriving DecidableEq, Repr

namespace FilterKey

/-- The keys in the order in which they are looked for. -/
def all : List FilterKey :=
  [category, domain, platform, channel, author, repo, type, hasImage, playlist, accessed, stale, enriched, dead,
    folder]

/-- The word of a key. -/
def word : FilterKey → String
  | category => "category"
  | domain => "domain"
  | platform => "platform"
  | channel => "channel"
  | author => "author"
  | repo => "repo"
  | type => "type"
  | hasImage => "hasimage"
  | playlist => "playlist"
  | accessed => "accessed"
  | stale => "stale"
  | enriched => "enriched"
  | dead => "dead"
  | folder => "folder"

/-- What the values of a key look like. -/
def kind : FilterKey → ValueKind
  | category | domain | platform | repo | type | folder => .lowered
  | channel | author | playlist => .verbatim
  | hasImage | accessed | stale | enriched | dead => .yesNo

end FilterKey

/-- The filters of a query, each of them if it is set. -/
structure SpecialFilters where
  category : Option String := none
  domain : Option String := none
  platform : Option String := none
  creator : Option String := none
  repo : Option String := none
  contentType : Option String := none
  hasImage : Option Bool := none
  playlist : Option String := none
  accessed : Option Bool := none
  stale : Option Bool := none
  enriched : Option Bool := none
  dead : Option Bool := none
  folder : Option String := none
  deriving DecidableEq, Repr, Inhabited

namespace SpecialFilters

/-- No filter is set. -/
def isEmpty (f : SpecialFilters) : Bool := f == {}

/-- Sets the filter of a key; channel and author are one filter.  The value is the text as it is written. -/
def set (f : SpecialFilters) (key : FilterKey) (value : List Char) : SpecialFilters :=
  let lowered := some (String.ofList (Text.lowerChars value))
  let verbatim := some (String.ofList value)
  let yes := some (Text.lowerChars value == ['y', 'e', 's'])
  match key with
  | .category => { f with category := lowered }
  | .domain => { f with domain := lowered }
  | .platform => { f with platform := lowered }
  | .channel | .author => { f with creator := verbatim }
  | .repo => { f with repo := lowered }
  | .type => { f with contentType := lowered }
  | .hasImage => { f with hasImage := yes }
  | .playlist => { f with playlist := verbatim }
  | .accessed => { f with accessed := yes }
  | .stale => { f with stale := yes }
  | .enriched => { f with enriched := yes }
  | .dead => { f with dead := yes }
  | .folder => { f with folder := lowered }

/-- A value of a kind at the front of a text, with its length. -/
def valueOf? (kind : ValueKind) (cs : List Char) : Option (List Char × Nat) :=
  match kind with
  | .lowered | .verbatim => value? cs
  | .yesNo => oneOf? [['y', 'e', 's'], ['n', 'o']] cs

/-- The filter tokens of a key. -/
def recognizer (key : FilterKey) : Recognizer (List Char) := keyed key.word.toList (valueOf? key.kind)

/-- Takes the first filter of a key out of a text. -/
def takeKey (state : SpecialFilters × List Char) (key : FilterKey) : SpecialFilters × List Char :=
  match cutFirst (recognizer key) state.2 with
  | some (value, rest) => (state.1.set key value, rest)
  | none => state

/-- The filters of a query and its remaining characters, with single blanks between the words. -/
def parseChars (cs : List Char) : SpecialFilters × List Char :=
  let (f, rest) := FilterKey.all.foldl takeKey ({}, cs)
  (f, Text.squash rest)

/-- The filters of a query and its remaining text. -/
def parse (query : String) : SpecialFilters × String :=
  let (f, rest) := parseChars query.toList
  (f, String.ofList rest)

/-- The filters that are set, by name. -/
def toFields (f : SpecialFilters) : List (String × Json) :=
  let text := fun name (v : Option String) => (v.map fun s => (name, Json.str s)).toList
  let flag := fun name (v : Option Bool) => (v.map fun b => (name, Json.bool b)).toList
  text "category" f.category ++ text "domain" f.domain ++ text "platform" f.platform ++ text "creator" f.creator ++
    text "repo" f.repo ++ text "content_type" f.contentType ++ flag "has_image" f.hasImage ++
    text "playlist" f.playlist ++ flag "accessed" f.accessed ++ flag "stale" f.stale ++
    flag "enriched" f.enriched ++ flag "dead" f.dead ++ text "folder" f.folder

end SpecialFilters

end Shelfmark.Query
