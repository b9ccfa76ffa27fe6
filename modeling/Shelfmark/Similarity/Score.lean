import Shelfmark.Bookmark.Basic
import Shelfmark.Similarity.Distance
import Shelfmark.Text.Words
import Shelfmark.Url

/-!
# How alike two bookmarks are

The likeness of two bookmarks is a weighted mean over signals: how close their titles are, how many words they share,
and so on.  Signals about which neither bookmark says anything are left out.

* `Signal`: the signals.
* `component`: what a signal says about two bookmarks.
* `breakdown`: what the weighted signals say, as far as they say anything.
* `score`: the weighted mean.
-/

namespace Shelfmark.Similarity

variable {α : Type}

/-- What is compared. -/
inductive Signal
  | titleFuzzy
  | titleWords
  | urlPath
  | descriptionWords
  | keywords
  | category
  | domain
  deriving DecidableEq, Repr

/-- All signals. -/
def Signal.all : List Signal := [titleFuzzy, titleWords, descriptionWords, keywords, category, domain, urlPath]

/-- The name of a signal. -/
def Signal.name : Signal → String
  | titleFuzzy => "title_fuzzy"
  | titleWords => "title_words"
  | urlPath => "url_path"
  | descriptionWords => "description_words"
  | keywords => "keywords"
  | category => "category"
  | domain => "domain"

/-- Both bookmarks are of one site, whatever the case of the letters. -/
def isSameDomain (a b : Bookmark) : Bool := !a.domain.isEmpty && Text.lower a.domain == Text.lower b.domain

/-- One for true and zero for false. -/
def truth [Scalar α] (b : Bool) : α := if b then Scalar.one else Scalar.zero

/-- The title without blanks at its ends, in lower case. -/
def plainTitle (b : Bookmark) : List Char := Text.lowerChars (Text.trim b.title.toList)

/-- The set of keywords, in lower case. -/
def keywordSet (b : Bookmark) : List String := Text.distinct (b.keywords.map Text.lower)

/-- How close the paths of two addresses are, if both have one. -/
def pathCloseness [Scalar α] (a b : Bookmark) : Option α :=
  match Url.comparablePath? a.url, Url.comparablePath? b.url with
  | some p, some q => some (closeness p.toList q.toList)
  | _, _ => none

/-- What a signal says about two bookmarks: nothing if neither has data for it.  Paths are compared only within one
site. -/
def component [Scalar α] (a b : Bookmark) : Signal → Option α
  | .titleFuzzy =>
    if (plainTitle a).isEmpty && (plainTitle b).isEmpty then none
    else some (closeness (plainTitle a) (plainTitle b))
  | .titleWords => overlap (Text.plainWordSet a.title) (Text.plainWordSet b.title)
  | .urlPath => if isSameDomain a b then pathCloseness a b else none
  | .descriptionWords => overlap (Text.plainWordSet a.description) (Text.plainWordSet b.description)
  | .keywords => overlap (keywordSet a) (keywordSet b)
  | .category =>
    if a.category.isEmpty && b.category.isEmpty then none
    else some (truth (Text.lower a.category == Text.lower b.category))
  | .domain => some (truth (isSameDomain a b))

/-- The signals that count for bookmarks of one site, with their weights in hundredths. -/
def sameDomainWeights : List (Signal × Nat) :=
  [(.titleFuzzy, 25), (.titleWords, 20), (.urlPath, 20), (.descriptionWords, 15), (.keywords, 10), (.category, 10)]

/-- The signals that count for bookmarks of different sites, with their weights in hundredths. -/
def crossDomainWeights : List (Signal × Nat) :=
  [(.titleFuzzy, 30), (.titleWords, 25), (.descriptionWords, 20), (.keywords, 15), (.category, 10)]

/-- The signals that count for two bookmarks, with their weights in hundredths. -/
def weights (a b : Bookmark) : List (Signal × Nat) :=
  if isSameDomain a b then sameDomainWeights else crossDomainWeights

/-- The signals that say something about two bookmarks, with their weights and what they say. -/
def evidence [Scalar α] (a b : Bookmark) : List (Signal × α × α) :=
  (weights a b).filterMap fun (s, w) => (component a b s).map fun v => (s, Scalar.ratio w 100, v)

/-- The weighted mean of what some signals say; zero if there are none. -/
def weightedMean [Scalar α] (es : List (Signal × α × α)) : α :=
  let total := Scalar.sum (es.map fun (_, w, _) => w)
  if Scalar.isZero total then Scalar.zero else Scalar.sum (es.map fun (_, w, v) => w * v) / total

/-- What the signals that count say about two bookmarks. -/
def breakdown [Scalar α] (a b : Bookmark) : List (Signal × α) := (evidence a b).map fun (s, _, v) => (s, v)

/-- How alike two bookmarks are, from zero to one. -/
def score [Scalar α] (a b : Bookmark) : α := weightedMean (evidence a b)

end Shelfmark.Similarity
