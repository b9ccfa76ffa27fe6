import Shelfmark.Text.Search

/-!
# Words

How texts are cut into words, for the index and for comparing bookmarks.

* `indexWords`: the words of a text in lower case.
* `prefixTokens`: every beginning of every word, so that parts of words are found.
* `tally`: the distinct members of a list with their numbers.
* `plainWords`: the words that carry meaning, without short words and stop words.
-/

namespace Shelfmark.Text

/-! ## Words of the index -/

/-- The maximal runs of word characters. -/
def wordRuns (cs : List Char) : List (List Char) := splitOn (fun c => !isWordChar c) cs

/-- The words of a text in lower case. -/
def indexWords (s : String) : List String := (wordRuns (lowerChars s.toList)).map String.ofList

/-- The beginnings of a word, the shortest first, without the empty one. -/
def beginnings : List Char → List (List Char)
  | [] => []
  | c :: rest => [c] :: (beginnings rest).map (c :: ·)

/-- The members of a list that are not among `seen` and do not occur earlier. -/
def freshFrom (seen : List String) : List String → List String
  | [] => []
  | x :: rest => if seen.contains x then freshFrom seen rest else x :: freshFrom (x :: seen) rest

/-- A list without repetitions, in order of first appearance. -/
def distinct (xs : List String) : List String := freshFrom [] xs

/-- The distinct members of a list, in order of first appearance, with their numbers. -/
def tally (xs : List String) : List (String × Nat) := (distinct xs).map fun x => (x, xs.count x)

/-- The beginnings of all words of a text, without repetition, in order of first appearance. -/
def prefixTokens (s : String) : List String :=
  distinct ((wordRuns (lowerChars s.toList)).flatMap fun w => (beginnings w).map String.ofList)

/-! ## Words with meaning -/

/-- Words too common to tell bookmarks apart. -/
def stopWords : List String :=
  ["the", "a", "an", "and", "or", "but", "in", "on", "at", "to", "for", "of", "with", "by", "is", "are", "was",
    "were", "be", "been", "have", "has", "had", "do", "does", "did", "will", "would", "could", "should", "may",
    "might", "can", "about", "from", "up", "out", "into", "over", "under", "this", "that", "these", "those", "i",
    "you", "he", "she", "it", "we", "they", "me", "him", "her", "us", "them", "my", "your", "his", "its", "our",
    "their", "what", "which", "who", "when", "where", "why", "how", "all", "each", "every", "both", "few", "more",
    "most", "other", "some", "such", "no", "not", "only", "same", "so", "than", "too", "very", "just", "also",
    "now", "here", "there", "then", "once", "if", "any", "as"]

/-- A word of more than two characters that is no stop word. -/
def isMeaningful (w : String) : Bool := 2 < w.length && !stopWords.contains w

/-- The pieces of a text between blanks and punctuation, in lower case, as far as they are meaningful. -/
def plainWords (s : String) : List String :=
  ((splitOn (fun c => !isWordChar c) (lowerChars s.toList)).map String.ofList).filter isMeaningful

/-- The set of meaningful words of a text. -/
def plainWordSet (s : String) : List String := distinct (plainWords s)

end Shelfmark.Text
