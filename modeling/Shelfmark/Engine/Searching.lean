import Shelfmark.Engine.Indexing
import Shelfmark.Query.Sidebar
import Shelfmark.Search.Facets
import Shelfmark.Search.Options
import Shelfmark.Search.Retrieval

/-!
# Searching

A search filters the bookmarks of the store, looks for the free text of the query, and lists one page of the hits.

* `readQuery`: the special filters and the free text of a query.
* `Answer`: the answer of a search.
* `search`: answers a search.
-/

namespace Shelfmark.Engine

open Query Search

/-- The special filters and the free text of a query. -/
def readQuery (host : Host) (query : String) : Except Fault (SpecialFilters × TextQuery) :=
  let (special, rest) := SpecialFilters.parse query
  match TextQuery.parse host rest with
  | .ok text => .ok (special, text)
  | .error r => .error (.pattern r)

/-- How a search was answered: as it should be, without the index, or not at all. -/
inductive Status
  | ok
  | degraded
  | failed
  deriving DecidableEq, Repr

/-- The answer of a search: one page of the hits and how many there are. -/
structure Answer where
  hits : List Hit
  total : Nat
  hasMore : Bool
  text : Option TextQuery := none
  special : Option SpecialFilters := none
  facets : Option Facets := none
  status : Status := .ok
  message : Option String := none

/-- The answer when the store cannot be read. -/
def Answer.failure (message : String) : Answer :=
  { hits := [], total := 0, hasMore := false, status := .failed, message := some message }

variable {α : Type}

/-- The options that the settings ask for. -/
def usualOptions (s : Settings) : Except Fault Options :=
  Options.of s.search.defaultLimit 0 none false Bookmark.indexedFields s.search.boost

/-- The index for a search, if one can be loaded. -/
def indexForSearch : Task α IndexAccess := do
  match ← loadIndex.attempt with
  | .ok i =>
    Task.look fun w =>
      let e := w.edition i
      if e.isBroken then .failing Index.isSearchable else .ready e.index
  | .error _ => return .missing

/-- The bookmarks among which a search looks for free text. -/
def candidates (active : Option ActiveFilters) (special : SpecialFilters) (now : Timestamp) (staleDays : Int)
    (bs : List Bookmark) : Except Fault (List Bookmark) := do
  let bs ← match active with
    | some f => f.apply now staleDays bs
    | none => .ok bs
  if special.isEmpty then return bs else special.apply now staleDays bs

/-- The hits for a free text among some bookmarks, and whether the index let the search down. -/
def textHits (bs : List Bookmark) (q : TextQuery) (o : Options) : Task α (List Hit × Bool) := do
  let access ← if q.regular.isEmpty then pure .missing else indexForSearch
  let (found, degraded) := retrieve bs q access o.fields o.boost
  return (sortHits (o.sortBy.getD .relevance) (rank found q), degraded)

/-- The page of some hits, with facets of all of them if asked for. -/
def answerOf (o : Options) (now : Timestamp) (hits : List Hit) (degraded : Bool)
    (parsed : Option (SpecialFilters × TextQuery)) : Except Fault Answer := do
  let facets ← if o.computeStats then (Facets.of now (hits.map (·.bookmark))).map some else .ok none
  return {
    hits := o.page hits
    total := hits.length
    hasMore := o.offset + o.limit < hits.length
    text := parsed.map Prod.snd
    special := parsed.map Prod.fst
    facets
    status := if degraded then .degraded else .ok }

/-- Answers a search among some bookmarks. -/
def searchAmong (bs : List Bookmark) (query : String) (active : Option ActiveFilters) (o : Options) :
    Task α Answer := do
  let now ← Task.look (·.now)
  let staleDays ← Task.look (·.settings.search.staleDays)
  -- filters beside the query are applied before the query is read
  let bs ← Task.ofExcept (candidates active {} now staleDays bs)
  let host ← Task.look (·.host)
  let parsed ← if Text.allBlank query then pure none else (Task.ofExcept (readQuery host query)).bind (pure ∘ some)
  let special := (parsed.map Prod.fst).getD {}
  let text := (parsed.map Prod.snd).getD {}
  let bs ← Task.ofExcept (candidates none special now staleDays bs)
  let (hits, degraded) ← if text.isEmpty then
      pure (sortHits (o.sortBy.getD .dateDesc) (bs.map fun b => ⟨b, .int 0⟩), false)
    else textHits bs text o
  Task.ofExcept (answerOf o now hits degraded parsed)

/-- Answers a search; without options those of the settings hold. -/
def search (query : String) (active : Option ActiveFilters) (options : Option Options) : Task α Answer := do
  let usual ← Task.look fun w => usualOptions w.settings
  let o ← Task.ofExcept (match options with
    | some o => .ok o
    | none => usual)
  match ← allBookmarks.attempt with
  | .error e => return Answer.failure e.message
  | .ok bs => searchAmong bs query active o

/-- The facets of all bookmarks of the store. -/
def storeFacets : Task α Facets := do
  let bs ← allBookmarks
  let now ← Task.look (·.now)
  Task.ofExcept (Facets.of now bs)

end Shelfmark.Engine
