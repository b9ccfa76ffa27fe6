import Shelfmark.Search.Filter
import Shelfmark.Text.Words

/-!
# Facets

How often each value of a facet occurs among some bookmarks, and how many of them were added lately.

* `Facets.of`: the facets of some bookmarks at a time.
* `Facets.toJson`: the facets as lists, the most frequent values first.
-/

namespace Shelfmark.Search

/-- The latest of some times; of several that are the same instant the first one. -/
def latest : Option Timestamp → List Timestamp → Option Timestamp
  | best, [] => best
  | none, t :: rest => latest (some t) rest
  | some best, t :: rest => latest (some (if best.lt t then t else best)) rest

/-- How many bookmarks were added in the last 7, 14, 90 and 180 days, in this month, in this year and before. -/
structure DateCounts where
  week : Nat
  twoWeek : Nat
  month : Nat
  threeMonth : Nat
  sixMonth : Nat
  year : Nat
  older : Nat
  deriving DecidableEq, Repr

/-- The facets of some bookmarks, each as values with their numbers in order of first appearance. -/
structure Facets where
  domains : List (String × Nat)
  /-- The time at which the latest bookmark of each domain was added. -/
  domainLatest : List (String × Timestamp)
  folders : List (String × Nat)
  topics : List (String × Nat)
  creators : List (String × Nat)
  contentTypes : List (String × Nat)
  dates : DateCounts

/-- The beginnings of the periods that bookmarks are counted in. -/
structure Periods where
  week : Timestamp
  twoWeek : Timestamp
  threeMonth : Timestamp
  sixMonth : Timestamp
  month : Timestamp
  year : Timestamp

/-- The midnight that begins a month or a year. -/
def Periods.midnight (t : Option Timestamp) : Except Fault Timestamp :=
  match t with
  | some t => .ok t
  | none => .error .unreadable

/-- The periods that end at a time. -/
def Periods.at (now : Timestamp) : Except Fault Periods := do
  let week ← now.daysBefore 7
  let twoWeek ← now.daysBefore 14
  let threeMonth ← now.daysBefore 90
  let sixMonth ← now.daysBefore 180
  let month ← midnight now.startOfMonth
  let year ← midnight now.startOfYear
  return { week, twoWeek, threeMonth, sixMonth, month, year }

/-- How many bookmarks were added in each period. -/
def DateCounts.of (p : Periods) (bs : List Bookmark) : DateCounts where
  week := bs.countP fun b => p.week.lt b.dateAdded
  twoWeek := bs.countP fun b => p.twoWeek.lt b.dateAdded
  month := bs.countP fun b => p.month.le b.dateAdded
  threeMonth := bs.countP fun b => p.threeMonth.lt b.dateAdded
  sixMonth := bs.countP fun b => p.sixMonth.lt b.dateAdded
  year := bs.countP fun b => p.year.le b.dateAdded
  older := bs.countP fun b => !p.year.le b.dateAdded

/-- The members of a list that are not empty. -/
def nonEmpty (xs : List String) : List String := xs.filter fun x => !x.isEmpty

namespace Facets

/-- The time at which the latest bookmark of each domain was added. -/
def latestByDomain (bs : List Bookmark) : List (String × Timestamp) :=
  (Text.distinct (nonEmpty (bs.map (·.domain)))).filterMap fun d =>
    (latest none ((bs.filter fun b => b.domain == d).map (·.dateAdded))).map (d, ·)

/-- The facets of some bookmarks, counted in given periods. -/
def count (p : Periods) (bs : List Bookmark) : Facets where
  domains := Text.tally (nonEmpty (bs.map (·.domain)))
  domainLatest := latestByDomain bs
  folders := Text.tally (nonEmpty (bs.map (·.folderPath)))
  topics := Text.tally (bs.flatMap (·.topics))
  creators := Text.tally ((bs.filter fun b => !b.creator.isEmpty).map (·.creatorKey))
  contentTypes := Text.tally (nonEmpty (bs.map (·.contentType)))
  dates := DateCounts.of p bs

/-- The facets of some bookmarks at a time. -/
def of (now : Timestamp) (bs : List Bookmark) : Except Fault Facets := (Periods.at now).map fun p => count p bs

/-! ## Lists -/

/-- The most frequent values first; values with the same number stay as they were. -/
def ranked (counts : List (String × Nat)) : List (String × Nat) := counts.mergeSort fun a b => b.2 ≤ a.2

/-- A list of values with their numbers, the values under a name. -/
def listed (name : String) (counts : List (String × Nat)) : Json :=
  .arr ((ranked counts).map fun (value, n) => .obj [(name, .str value), ("count", .int n)])

/-- The platform and the creator of a key: what stands before its first colon and what stands behind. -/
def splitKey (key : String) : String × String :=
  let cs := key.toList
  (String.ofList (cs.takeWhile (· != ':')), String.ofList ((cs.dropWhile (· != ':')).drop 1))

/-- The domains with their numbers and the time of their latest bookmark. -/
def domainsJson (f : Facets) : Json :=
  .arr ((ranked f.domains).map fun (d, n) =>
    .obj [("domain", .str d), ("count", .int n),
      ("latest_date", Json.ofOption (fun e => e.2.toJson) (f.domainLatest.find? fun e => e.1 == d))])

/-- The creators with their numbers. -/
def creatorsJson (f : Facets) : Json :=
  .arr ((ranked f.creators).map fun (key, n) =>
    let (platform, creator) := splitKey key
    .obj [("key", .str key), ("creator", .str creator), ("platform", .str platform), ("count", .int n)])

/-- The numbers of bookmarks by period. -/
def datesJson (d : DateCounts) : Json :=
  .obj [("week", .int d.week), ("two_week", .int d.twoWeek), ("month", .int d.month),
    ("three_month", .int d.threeMonth), ("six_month", .int d.sixMonth), ("year", .int d.year),
    ("older", .int d.older)]

/-- The facets as lists, the most frequent values first. -/
def toJson (f : Facets) : Json :=
  .obj [("domains", f.domainsJson), ("folders", listed "folder" f.folders), ("topics", listed "topic" f.topics),
    ("creators", f.creatorsJson), ("contentTypes", listed "type" f.contentTypes), ("dateCounts", datesJson f.dates)]

end Facets

end Shelfmark.Search
