import Shelfmark.Bookmark.Words
import Shelfmark.Scalar

/-!
# Term vectors

A document becomes a vector: each of its terms weighs the more, the more often it occurs in the document and the
fewer documents it occurs in.

* `TermVector.ofDocuments`: the vectors of some documents.
* `TermVector.cosine`: the cosine of the angle between two vectors.
-/

namespace Shelfmark.Similarity

/-- The weights of the terms of a document, in order of first appearance, and the length of the vector. -/
structure TermVector (α : Type) where
  id : String
  weights : List (String × α)
  magnitude : α

/-- A document: an id and its words. -/
abbrev WordList := String × List String

namespace TermVector

variable {α : Type} [AnalyticScalar α]

/-- All terms of some documents, each as often as there are documents with it. -/
def allTerms (documents : List WordList) : List String := documents.flatMap fun d => Text.distinct d.2

/-- How much a term tells documents apart: the logarithm of the number of documents for each one that has it. -/
def rarity (count : Nat) (terms : List String) (term : String) : α :=
  AnalyticScalar.log (Scalar.ratio count (terms.count term))

/-- The vector of a document among `count` documents with the terms `terms`. -/
def ofWords (count : Nat) (terms : List String) (d : WordList) : TermVector α :=
  let weights := (Text.tally d.2).map fun (term, n) =>
    (term, Scalar.ratio n d.2.length * rarity count terms term)
  ⟨d.1, weights, AnalyticScalar.sqrt (Scalar.sum (weights.map fun w => w.2 * w.2))⟩

/-- The vectors of some documents. -/
def ofDocuments (documents : List WordList) : List (TermVector α) :=
  let terms := allTerms documents
  documents.map (ofWords documents.length terms)

/-- The weight of a term, if the document has it. -/
def weight? (v : TermVector α) (term : String) : Option α :=
  (v.weights.find? fun w => w.1 == term).map Prod.snd

/-- The terms that two documents share with their weights in both, in the order of the terms. -/
def shared (v w : TermVector α) : List (String × α × α) :=
  (v.weights.filterMap fun (term, x) => (w.weight? term).map fun y => (term, x, y)).mergeSort
    fun a b => a.1 ≤ b.1

/-- The cosine of the angle between two vectors; zero if they share no term or one of them has no length. -/
def cosine (v w : TermVector α) : α :=
  let terms := shared v w
  if terms.isEmpty || Scalar.isZero v.magnitude || Scalar.isZero w.magnitude then Scalar.zero
  else Scalar.sum (terms.map fun (_, x, y) => x * y) / (v.magnitude * w.magnitude)

end TermVector

end Shelfmark.Similarity
