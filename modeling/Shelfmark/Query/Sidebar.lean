import Shelfmark.Query.Active
import Shelfmark.Query.Scan

/-!
# The side bar

The text of the side bar holds active filters of the form `key:value`, of which a key may have several, and the words
for dead and stale bookmarks.

* `SidebarKey`: the keys.
* `ActiveFilters.parse`: the filters of a text and its remaining text.
-/

namespace Shelfmark.Query

/-- The keys of the side bar. -/
inductive SidebarKey
  | domain
  | site
  | folder
  | topic
  | type
  | tag
  deriving DecidableEq, Repr

namespace SidebarKey

/-- The keys in the order in which they are looked for. -/
def all : List SidebarKey := [domain, site, folder, topic, type, tag]

/-- The word of a key. -/
def word : SidebarKey → String
  | domain => "domain"
  | site => "site"
  | folder => "folder"
  | topic => "topic"
  | type => "type"
  | tag => "tag"

end SidebarKey

/-- The phrases that ask for dead bookmarks. -/
def deadPhrases : List (List Char) := ["dead:yes".toList, "is:dead".toList]

/-- The phrases that ask for stale bookmarks. -/
def stalePhrases : List (List Char) := ["stale:yes".toList, "is:stale".toList]

namespace ActiveFilters

/-- Adds values to the filter of a key. -/
def addValues (f : ActiveFilters) (key : SidebarKey) (values : List String) : ActiveFilters :=
  match key with
  | .domain | .site => { f with domains := f.domains ++ values }
  | .folder => { f with folders := f.folders ++ values }
  | .topic => { f with topics := f.topics ++ values }
  | .type => { f with types := f.types ++ values }
  | .tag => { f with tags := f.tags ++ values }

/-- Takes all filters of a key out of a text. -/
def takeKey (state : ActiveFilters × List Char) (key : SidebarKey) : ActiveFilters × List Char :=
  let ps := pieces (keyed key.word.toList value?) state.2
  (state.1.addValues key ((tokensOf ps).map fun v => String.ofList (Text.lowerChars v)), fill [] ps)

/-- Takes some phrases out of a text: whether one of them occurs, and the rest. -/
def takePhrases (phrases : List (List Char)) (cs : List Char) : Bool × List Char :=
  let ps := pieces (flagged phrases) cs
  (!(tokensOf ps).isEmpty, fill [] ps)

/-- The filters of a text and its remaining characters, with single blanks between the words. -/
def parseChars (cs : List Char) : ActiveFilters × List Char :=
  let (f, rest) := SidebarKey.all.foldl takeKey ({}, cs)
  let (dead, rest) := takePhrases deadPhrases rest
  let (stale, rest) := takePhrases stalePhrases rest
  ({ f with deadLinks := dead, stale := stale }, Text.squash rest)

/-- The filters of a text and its remaining text. -/
def parse (text : String) : ActiveFilters × String :=
  let (f, rest) := parseChars text.toList
  (f, String.ofList rest)

end ActiveFilters

end Shelfmark.Query
