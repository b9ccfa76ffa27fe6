import Shelfmark.Random.Twister
import Shelfmark.Similarity.Content
import Shelfmark.Similarity.Duplicates
import Shelfmark.Similarity.Score

/-!
# The scan for likely duplicates

All pairs of bookmarks of one site are compared, and the pairs of different sites within a sample.

* `ScanOptions`: how much is asked for.
* `sameDomainMatches`, `crossDomainMatches`: the pairs that are alike enough.
* `rankMatches`: the best pairs.
-/

namespace Shelfmark.Similarity

/-- The options of a scan. -/
structure ScanOptions where
  minSimilarity : Number := .real 0.5
  maxPairs : Nat := 100
  includeCrossDomain : Bool := true
  sampleSize : Nat := 200
  /-- The seed of the sample. -/
  seed : Option Int := some 42
  maxPairs_pos : 0 < maxPairs := by decide
  sampleSize_ge : 2 ≤ sampleSize := by decide

/-- The options with some values, if the least similarity lies between zero and one, the number of pairs is positive
and the sample holds at least two bookmarks. -/
def ScanOptions.of (minSimilarity : Number) (maxPairs : Int) (includeCrossDomain : Bool) (sampleSize : Int)
    (seed : Option Int) : Except Fault ScanOptions :=
  if !((Number.int 0).le minSimilarity && minSimilarity.le (.int 1)) then .error .similarityOutOfRange
  else if h : maxPairs < 1 then .error .maxPairsNotPositive
  else if h' : sampleSize < 2 then .error .sampleTooSmall
  else
    .ok {
      minSimilarity, maxPairs := maxPairs.toNat, includeCrossDomain, sampleSize := sampleSize.toNat, seed,
      maxPairs_pos := by omega, sampleSize_ge := by omega }

/-- The search for pairs ends when it has found this many times the pairs asked for. -/
def pairSurplus : Nat := 2

/-- The most pairs that are collected. -/
def ScanOptions.pairCap (o : ScanOptions) : Nat := pairSurplus * o.maxPairs

/-- Two bookmarks that are likely to be duplicates. -/
structure Match (α : Type) where
  first : Bookmark
  second : Bookmark
  score : α
  sameDomain : Bool
  breakdown : List (Signal × α)

variable {α : Type} [Scalar α]

/-- The match of two bookmarks. -/
def matchOf (p : Bookmark × Bookmark) : Match α :=
  let es := evidence p.1 p.2
  { first := p.1
    second := p.2
    score := weightedMean es
    sameDomain := isSameDomain p.1 p.2
    breakdown := es.map fun (s, _, v) => (s, v) }

/-- Two bookmarks have one address. -/
def sameAddress (a b : Bookmark) : Bool := !a.url.isEmpty && a.url == b.url

/-- The matches among some pairs that are at least as alike as a threshold; pairs with one address are left out. -/
def matchesAmong (threshold : α) (ps : List (Bookmark × Bookmark)) : List (Match α) :=
  ((ps.filter fun p => !sameAddress p.1 p.2).map matchOf).filter fun m => Scalar.le threshold m.score

/-- The pairs of bookmarks of one site, site by site. -/
def sameDomainPairs (bs : List Bookmark) : List (Bookmark × Bookmark) :=
  (groupBy (fun b => some (Text.lower b.domain)) (bs.filter fun b => !b.domain.isEmpty)).flatMap orderedPairs

/-- The matches of bookmarks of one site. -/
def sameDomainMatches (bs : List Bookmark) (threshold : α) (cap : Nat) : List (Match α) :=
  (matchesAmong threshold (sameDomainPairs bs)).take cap

/-- What the threshold is raised by for bookmarks of different sites. -/
def crossDomainPenalty : α := Scalar.ratio 1 10

/-- The pairs of bookmarks of different sites. -/
def crossDomainPairs (bs : List Bookmark) : List (Bookmark × Bookmark) :=
  (orderedPairs bs).filter fun p => !isSameDomain p.1 p.2

/-- The matches of bookmarks of different sites, at least one of them if there is any; `found` counts the matches
already collected. -/
def crossDomainMatches (sampled : List Bookmark) (threshold : α) (cap found : Nat) : List (Match α) :=
  (matchesAmong (threshold + crossDomainPenalty) (crossDomainPairs sampled)).take (max 1 (cap - found))

/-- The bookmarks that are compared across sites: all of them, or a sample if there are too many. -/
def sampleOf (size : Nat) (seed : Option Int) (bs : List Bookmark) : List Bookmark :=
  if size < bs.length then Random.sample (Random.Twister.ofSeed (seed.getD 0)) bs size else bs

/-- The best matches, the most alike first. -/
def rankMatches (ms : List (Match α)) (maxPairs : Nat) : List (Match α) :=
  (Scalar.descending (·.score) ms).take maxPairs

end Shelfmark.Similarity
