import Shelfmark.Similarity.TermVector

/-!
# Similar content

Bookmarks are compared by the words they hold.

* `similarPairs`: pairs of bookmarks with similar content.
* `related`: the bookmarks most similar to one of them.
-/

namespace Shelfmark.Similarity

/-- Two bookmarks with similar content. -/
structure SimilarPair (α : Type) where
  first : Bookmark
  second : Bookmark
  similarity : α
  commonCategory : Bool
  sameDomain : Bool

/-- A bookmark similar to another one. -/
structure Related (α : Type) where
  bookmark : Bookmark
  similarity : α
  sameDomain : Bool
  sameCategory : Bool

/-- All pairs of members of a list, the first member of a pair standing before the second. -/
def orderedPairs {β : Type} : List β → List (β × β)
  | [] => []
  | x :: rest => rest.map (x, ·) ++ orderedPairs rest

/-- Two texts are equal and not empty. -/
def sameText (s t : String) : Bool := !s.isEmpty && s == t

/-- The bookmarks that have words, with their words. -/
def withWords (bs : List Bookmark) : List (Bookmark × List String) :=
  (bs.map fun b => (b, b.weightedWords)).filter fun d => !d.2.isEmpty

variable {α : Type} [AnalyticScalar α]

/-- The bookmarks that have words, with their vectors. -/
def vectors (docs : List (Bookmark × List String)) : List (Bookmark × TermVector α) :=
  (docs.map Prod.fst).zip (TermVector.ofDocuments (docs.map fun d => (d.1.id, d.2)))

/-- The pair of two bookmarks with given vectors. -/
def pairOf (p : (Bookmark × TermVector α) × (Bookmark × TermVector α)) : SimilarPair α :=
  { first := p.1.1
    second := p.2.1
    similarity := p.1.2.cosine p.2.2
    commonCategory := sameText p.1.1.category p.2.1.category
    sameDomain := sameText p.1.1.domain p.2.1.domain }

/-- The search for pairs ends when it has found this many times the pairs asked for. -/
def surplus : Nat := 3

/-- Compares a bookmark with those behind it until the pairs found are as many as a budget.  A pair with one address is
passed over before it is compared, and so before the pairs are counted. -/
def searchRow (threshold : α) (budget : Nat) (d : Bookmark × TermVector α) (found : Array (SimilarPair α)) :
    List (Bookmark × TermVector α) → Array (SimilarPair α)
  | [] => found
  | e :: rest =>
    if d.1.url == e.1.url then searchRow threshold budget d found rest
    else
      let p := pairOf (d, e)
      let found := if Scalar.le threshold p.similarity then found.push p else found
      if budget ≤ found.size then found else searchRow threshold budget d found rest

/-- Compares each bookmark with those behind it until the pairs found are as many as a budget. -/
def searchRows (threshold : α) (budget : Nat) (found : Array (SimilarPair α)) :
    List (Bookmark × TermVector α) → Array (SimilarPair α)
  | [] => found
  | d :: rest =>
    let found := searchRow threshold budget d found rest
    if budget ≤ found.size then found else searchRows threshold budget found rest

/-- The best of the pairs found, the most similar first; a number below one asks for none. -/
def similarPairs (bs : List Bookmark) (threshold : α) (maxPairs : Int) : List (SimilarPair α) :=
  let n := maxPairs.toNat
  let found := searchRows threshold (surplus * n) #[] (vectors (withWords bs))
  (Scalar.descending (·.similarity) found.toList).take n

/-! ## Related bookmarks -/

/-- The similarity of a bookmark to the target, raised if they share the domain or the category. -/
def relatedTo (target : Bookmark) (v : TermVector α) (d : Bookmark × TermVector α) : Related α :=
  let sameDomain := sameText d.1.domain target.domain
  let sameCategory := sameText d.1.category target.category
  let raised := fun (x : α) =>
    let x := if sameDomain then x * Scalar.ratio 3 2 else x
    if sameCategory then x * Scalar.ratio 13 10 else x
  ⟨d.1, raised (v.cosine d.2), sameDomain, sameCategory⟩

/-- The bookmarks most similar to the one with an id, the most similar first, without those that are hardly similar
at all. -/
def related (bs : List Bookmark) (id : String) (limit : Int) : List (Related α) :=
  match bs.find? fun b => b.id == id with
  | none => []
  | some target =>
    let words := target.weightedWords
    if words.isEmpty then []
    else
      match vectors ((target, words) :: withWords (bs.filter fun b => b.id != id)) with
      | [] => []
      | (_, v) :: others =>
        upTo limit (Scalar.descending (·.similarity)
          ((others.map (relatedTo target v)).filter fun r => Scalar.lt (Scalar.ratio 1 10) r.similarity))

end Shelfmark.Similarity
