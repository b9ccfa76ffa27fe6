import Shelfmark.Engine.Indexing
import Shelfmark.Similarity.Encoding

/-!
# Comparing bookmarks

* `findDuplicates`, `findRelated`: the bookmarks of the store compared at once.
* `findSimilar`: pairs with similar content, which are cached for a while.
* `computeSimilar`, `similarTo`, `precompute`: records of how alike bookmarks are, which are stored.
* `scanForDuplicates`: pairs that are likely to be duplicates.
-/

namespace Shelfmark.Engine

open Similarity

variable {α : Type}

/-- The answer of a task; another one if it fails. -/
def orElse {β : Type} (t : Task α β) (other : β) : Task α β := do
  match ← t.attempt with
  | .ok b => return b
  | .error _ => return other

/-! ## All bookmarks at once -/

/-- The groups of duplicates in the store, none if it cannot be read. -/
def findDuplicates : Task α DuplicateReport := do
  let bs ← orElse allBookmarks []
  return duplicates bs

/-- The bookmarks most similar to one of them, none if the store cannot be read. -/
def findRelated (id : String) (limit : Int) : Task α (List (Related Float)) := do
  let bs ← orElse allBookmarks []
  return related bs id limit

/-! ## Similar pairs -/

/-- The version of the layout of cached pairs. -/
def pairsVersion : Nat := 1

/-- The key of the cached pairs for a threshold. -/
def pairsKeyOf (threshold : Number) : String := pairsKey ++ threshold.text

/-- The items of a list; an empty text and an empty object have none. -/
def itemsOf (v : Json) : Except Fault (List Json) :=
  match v with
  | .arr items => .ok items
  | v => if v.isTrue || v.isNull then .error v.typeFault else
    match v with
    | .str _ | .obj _ => .ok []
    | _ => .error v.typeFault

/-- The fault of a cached value with another version, which is spelled out. -/
def otherVersion (room : Nat) (key : String) (version : Json) : Fault :=
  match version.literal room with
  | .ok found => .cacheVersion key found pairsVersion
  | .error e => e

/-- The pairs of a cached value: nothing if they were found with another limit, a fault if the value has another
layout. -/
def pairsIn (room : Nat) (key : String) (v : Json) (maxPairs : Int) :
    Except Fault (Option (List (SimilarPair Float))) :=
  match v with
  | .obj entries =>
    let version := v.get "schema_version"
    if !version.same (.int pairsVersion) then .error (otherVersion room key version)
    else if !(v.get "max_pairs").same (.int maxPairs) then .ok none
    else do
      let items ← itemsOf ((Json.lookup "pairs" entries).getD (.arr []))
      (items.mapM SimilarPair.ofJson).map some
  | _ => .ok none

/-- The cached pairs for a threshold, if there are any that can be used. -/
def cachedPairs (key : String) (maxPairs : Int) : Task α (Option (List (SimilarPair Float))) :=
  orElse (do
    let v ← cached key
    let room ← Task.look (·.host.room)
    Task.ofExcept (pairsIn room key v maxPairs)) none

/-- The value that is cached for some pairs. -/
def pairsEntry (ps : List (SimilarPair Float)) (maxPairs : Int) (now : Timestamp) : Json :=
  .obj [("schema_version", .int pairsVersion), ("max_pairs", .int maxPairs),
    ("pairs", .arr (ps.map SimilarPair.toJson)), ("timestamp", .str now.isoText)]

/-- Caches some pairs; that this fails does not matter. -/
def cachePairs (key : String) (ps : List (SimilarPair Float)) (maxPairs : Int) : Task α Unit :=
  orElse (Task.locked do
    let entry ← Task.look fun w => pairsEntry ps maxPairs w.now
    let lifetime ← Task.look fun w => w.settings.similarity.pairsLifetime
    cacheValue key entry (some lifetime)) ()

/-- Finds the pairs of the bookmarks of the store and caches them; none if the store cannot be read. -/
def computePairs (key : String) (threshold : Number) (maxPairs : Int) : Task α (List (SimilarPair Float)) := do
  match ← allBookmarks.attempt with
  | .error _ => return []
  | .ok bs =>
    Task.pause
    let ps := similarPairs bs threshold.toFloat maxPairs
    cachePairs key ps maxPairs
    return ps

/-- Pairs of bookmarks with similar content, from the cache if asked to.  The settings say what is not given. -/
def findSimilar (threshold : Option Number) (maxPairs : Option Int) (useCache : Bool) :
    Task α (List (SimilarPair Float)) := do
  let settings ← Task.look (·.settings.similarity)
  let threshold := threshold.getD settings.threshold
  let maxPairs := maxPairs.getD settings.maxPairs
  Task.ofExcept threshold.checkText
  let key := pairsKeyOf threshold
  match ← if useCache then cachedPairs key maxPairs else pure none with
  | some ps => return ps
  | none => computePairs key threshold maxPairs

/-! ## Records -/

section Records

variable [Scalar α]

/-- The candidates for a target, looked up in the store. -/
def candidatesFromStore (target : Bookmark) (caps : Caps) : Task α (List Bookmark) := do
  let sameDomain ← if target.domain.isEmpty then pure []
    else bookmarksOfDomain target.domain (some (caps.domain + 1))
  let sameCategory ← if target.category.isEmpty then pure []
    else bookmarksOfCategory target.category (some (caps.category + 1))
  let pool ← if target.keywords.isEmpty then pure [] else allBookmarks
  return select target sameDomain sameCategory pool caps

/-- The later bookmarks come first. -/
def newestFirst (bs : List Bookmark) : List Bookmark := bs.mergeSort fun a b => b.dateAdded.le a.dateAdded

/-- The candidates for a target among given bookmarks. -/
def candidatesAmong (target : Bookmark) (corpus : List Bookmark) (caps : Caps) : List Bookmark :=
  let ordered := newestFirst corpus
  let sharing := fun (part : Bookmark → String) =>
    ordered.filter fun b => !(part target).isEmpty && Text.lower (part b) == Text.lower (part target)
  select target (sharing (·.domain)) (sharing (·.category)) ordered caps

/-- A bookmark with its candidates; nothing if it is unknown. -/
def targetAndCandidates (id : String) (corpus : Option (List Bookmark)) :
    Task α (Option (Bookmark × List Bookmark)) := do
  match ← bookmarkWithId id with
  | none => return none
  | some target =>
    let caps ← Task.look (·.settings.similarity.caps)
    let bs ← match corpus with
      | some bs => pure (candidatesAmong target bs caps)
      | none => candidatesFromStore target caps
    return some (target, bs)

/-- Compares a bookmark with its candidates and stores the best records; that storing fails does not matter.  The
candidates are drawn from the store unless other bookmarks are given. -/
def computeSimilar (id : String) (topN : Option Int) (corpus : Option (List Bookmark)) :
    Task α (List (Record α)) := do
  match ← orElse (targetAndCandidates id corpus) none with
  | none => return []
  | some (target, bs) =>
    let usual ← Task.look (·.settings.similarity.topN)
    let now ← Task.look (·.now)
    let rs := rankCandidates target bs (topN.getD usual) now
    orElse (Task.locked (storeRecords target.id rs)) ()
    return rs

/-- Every record is younger than a lifetime. -/
def areFresh (rs : List (Record α)) (lifetime : Int) (now : Timestamp) : Bool :=
  rs.all fun r => now.instant - r.computedAt.instant < lifetime

/-- The stored records, if there are any and they are not too old. -/
def freshRecords (id : String) : Task α (Option (List (Record α))) := do
  let rs ← orElse (storedRecords id) []
  if rs.isEmpty then return none
  let lifetime ← Task.look (·.settings.similarity.recordsLifetime)
  let micros ← Task.ofExcept (microsOfSeconds lifetime)
  let now ← Task.look (·.now)
  return if areFresh rs micros now then some rs else none

/-- The records of a bookmark: the stored ones unless they are missing or too old. -/
def similarTo (id : String) (limit : Option Int) : Task α (List (Record α)) := do
  let rs ← match ← freshRecords id with
    | some rs => pure rs
    | none => computeSimilar id none none
  return match limit with
    | some n => upTo n rs
    | none => rs

/-- The progress that is reported while a number of bookmarks is worked off: every tenth, and the last. -/
def isReported (completed total : Nat) : Bool := completed % 10 == 0 || completed == total

/-- Computes the records of some bookmarks and reports the progress; `completed` counts those already done. -/
def precomputeFrom (corpus : List Bookmark) (total completed : Nat) : List Bookmark → Task α (List (Nat × Nat))
  | [] => pure []
  | b :: rest => do
    let _ ← computeSimilar b.id none (some corpus)
    let reports ← precomputeFrom corpus total (completed + 1) rest
    return if isReported (completed + 1) total then (completed + 1, total) :: reports else reports

/-- Computes the records of all bookmarks with more to them than their address: how many there are, and the progress
reported. -/
def precompute : Task α (Nat × List (Nat × Nat)) := do
  let bs ← orElse allBookmarks []
  let enriched := bs.filter (·.isEnriched)
  let reports ← precomputeFrom bs enriched.length 0 enriched
  return (enriched.length, reports)

/-! ## Likely duplicates -/

/-- The options of a scan that the settings ask for. -/
def usualScan (s : SimilaritySettings) : Except Fault ScanOptions :=
  ScanOptions.of (.real 0.5) s.maxPairs true s.sampleSize s.sampleSeed

/-- The matches among some bookmarks: those of one site, and those of different sites if there are too few. -/
def scanMatches (threshold : α) (o : ScanOptions) (bs : List Bookmark) : List (Match α) :=
  let same := sameDomainMatches bs threshold o.pairCap
  if o.includeCrossDomain && same.length < o.maxPairs then
    same ++ crossDomainMatches (sampleOf o.sampleSize o.seed bs) threshold o.pairCap same.length
  else same

/-- The pairs of the store that are likely to be duplicates, the most alike first, none if the store cannot be read.
Without options those of the settings hold; `threshold` turns the least similarity into a score. -/
def scanForDuplicates (threshold : Number → α) (options : Option ScanOptions) : Task α (List (Match α)) := do
  let usual ← Task.look fun w => usualScan w.settings.similarity
  let o ← Task.ofExcept (match options with
    | some o => .ok o
    | none => usual)
  match ← allBookmarks.attempt with
  | .error _ => return []
  | .ok bs =>
    Task.pause
    return rankMatches (scanMatches (threshold o.minSimilarity) o bs) o.maxPairs

end Records

end Shelfmark.Engine
