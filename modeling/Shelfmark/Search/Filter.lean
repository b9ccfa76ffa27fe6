import Shelfmark.Query.Active
import Shelfmark.Query.Special
import Shelfmark.Time.Span

/-!
# Filters as predicates

Which bookmarks a filter keeps.  A filter on stale bookmarks needs a point of time, and a number of days that leads out
of the calendar is a fault; so are extras and metadata that are no objects.  Either is one only for a bookmark that is
asked about it.

* `Bookmark.isStale`: a bookmark is old and was never opened.
* `ActiveFilters.keeps`, `SpecialFilters.keeps`: a filter keeps a bookmark.
* `keepWhere`: the bookmarks that a predicate keeps.
-/

namespace Shelfmark

/-- The bookmarks that a predicate keeps. -/
def keepWhere (p : Bookmark → Except Fault Bool) : List Bookmark → Except Fault (List Bookmark)
  | [] => .ok []
  | b :: rest => do
    let keep ← p b
    let kept ← keepWhere p rest
    return if keep then b :: kept else kept

/-- The bookmark is older than a limit, was never opened and is not known to be dead. -/
def Bookmark.isStale (b : Bookmark) (limit : Timestamp) : Bool :=
  b.dateAdded.lt limit && b.accessCount == 0 && !b.isDead

namespace Query

/-! ## Active filters -/

namespace ActiveFilters

/-- A topic is one that is asked for, or lies below it. -/
def topicFits (wanted topic : String) : Bool := topic == wanted || Text.startsWith topic (wanted ++ "/")

/-- One of some texts occurs in another, whatever the case; no texts ask for nothing. -/
def oneOccurs (wanted : List String) (text : String) : Bool :=
  wanted.isEmpty || wanted.any fun w => Text.contains (Text.lower text) (Text.lower w)

/-- The filters on names, and on dead bookmarks, keep the bookmark. -/
def fitsNames (f : ActiveFilters) (b : Bookmark) : Bool :=
  oneOccurs f.domains b.domain && oneOccurs f.folders b.folderPath &&
    (f.topics.isEmpty ||
      f.topics.any fun w => b.topics.any fun t => topicFits (Text.lower w) (Text.lower t)) &&
    (f.types.isEmpty || f.types.any fun w => Text.lower b.contentType == Text.lower w) &&
    (f.creators.isEmpty || f.creators.contains b.creatorKey) &&
    (f.tags.isEmpty || f.tags.any b.tags.contains) &&
    (!f.deadLinks || b.isDead)

/-- The filters on ranges and on the date of publication keep the bookmark. -/
def fitsRanges (f : ActiveFilters) (b : Bookmark) : Bool :=
  f.dateRange.all (·.contains b.dateAdded) && f.readingTime.all (·.contains b.readingTime) &&
    f.qualityScore.all (·.contains b.qualityScore) && f.hasPublishedDate.all (b.hasPublishedDate == ·)

/-- The filters keep the bookmark. -/
def keeps (f : ActiveFilters) (limit : Except Fault Timestamp) (b : Bookmark) : Except Fault Bool :=
  if f.fitsNames b then
    if f.stale then limit.map fun l => b.isStale l && f.fitsRanges b else .ok (f.fitsRanges b)
  else .ok false

/-- The bookmarks that the filters keep. -/
def apply (f : ActiveFilters) (now : Timestamp) (staleDays : Int) (bs : List Bookmark) :
    Except Fault (List Bookmark) :=
  keepWhere (f.keeps (now.daysBefore staleDays)) bs

end ActiveFilters

/-! ## Special filters -/

namespace SpecialFilters

/-- A text filter that is set and not empty holds. -/
def textHolds (filter : Option String) (p : String → Bool) : Bool := filter.all fun s => s.isEmpty || p s

/-- A creator is one that is asked for: the name occurs in it, with or without a sign in front. -/
def creatorFits (creator wanted : String) : Bool :=
  let creator := Text.lower creator
  let wanted := Text.lower wanted
  Text.contains creator wanted ||
    Text.contains creator (String.ofList (wanted.toList.dropWhile (· == '@'))) ||
    Text.contains ("@" ++ creator) wanted

/-- A kind of content is among those asked for, parted by bars. -/
def typeFits (contentType wanted : String) : Bool :=
  ((wanted.toList.splitOn '|').map Text.trim).contains (Text.lowerChars contentType.toList)

/-- The filters on category, domain and use keep the bookmark. -/
def fitsPlace (f : SpecialFilters) (b : Bookmark) : Bool :=
  textHolds f.category (fun s => Text.lower (if b.category.isEmpty then "uncategorized" else b.category) == s) &&
    textHolds f.domain (fun s => Text.contains (Text.lower b.domain) s) &&
    f.accessed.all (decide (0 < b.accessCount) == ·)

/-- The filters on parts that every bookmark has, looked at after the one on stale bookmarks, keep the bookmark. -/
def fitsContent (f : SpecialFilters) (b : Bookmark) : Bool :=
  f.enriched.all (b.isEnriched == ·) && f.dead.all (b.isDead == ·) &&
    textHolds f.folder (fun s => Text.contains (Text.lower b.folderPath) s) &&
    textHolds f.platform (fun s => Text.lower b.platformName == s) &&
    textHolds f.creator (creatorFits b.creator)

/-- A text is looked at only by a filter that is set and not empty. -/
def textFound (filter : Option String) (text : Except Fault String) : Except Fault Bool :=
  match filter with
  | some s => if s.isEmpty then .ok true else text.map fun t => Text.contains t s
  | none => .ok true

/-- Whether something is so is looked at only by a filter that is set. -/
def answerFound (filter : Option Bool) (answer : Except Fault Bool) : Except Fault Bool :=
  match filter with
  | some wanted => answer.map (· == wanted)
  | none => .ok true

/-- What the filters ask of a bookmark, in the order in which it is asked.  Asking for bookmarks that are not stale asks
for nothing. -/
def conditions (f : SpecialFilters) (limit : Except Fault Timestamp) (b : Bookmark) : List (Except Fault Bool) :=
  [.ok (f.fitsPlace b),
    if f.stale == some true then limit.map b.isStale else .ok true,
    .ok (f.fitsContent b),
    textFound f.repo b.repoName,
    .ok (textHolds f.contentType (typeFits b.contentType)),
    answerFound f.hasImage b.hasImage,
    textFound f.playlist b.playlist]

/-- The filters keep the bookmark: a condition is looked at if all before it hold. -/
def keeps (f : SpecialFilters) (limit : Except Fault Timestamp) (b : Bookmark) : Except Fault Bool :=
  (f.conditions limit b).allM id

/-- The bookmarks that the filters keep. -/
def apply (f : SpecialFilters) (now : Timestamp) (staleDays : Int) (bs : List Bookmark) :
    Except Fault (List Bookmark) :=
  keepWhere (f.keeps (now.daysBefore staleDays)) bs

end SpecialFilters

end Query

end Shelfmark
