import Std.Data.HashMap
import Shelfmark.Bookmark.Field
import Shelfmark.Text.Words

/-!
# The index

An index lists, for every field and token, the bookmarks that have the token in that field.  The tokens of a field
are the beginnings of its words, so that a part of a word finds the whole.

* `Document`: the tokens of a bookmark, field by field.
* `Index`: the documents in the order in which they came, and for every field and token the ids of the documents
  that list it.
* `Index.add`, `Index.update`, `Index.remove`, `Index.clear`: changes.
* `Index.search`: the documents that match some terms, with scores.
-/

namespace Shelfmark

/-- The tokens of a bookmark, field by field. -/
structure Document where
  id : String
  fields : List (String × List String)
  deriving DecidableEq, Repr, Inhabited

namespace Document

/-- The tokens of a field. -/
def fieldTokens (b : Bookmark) (name : String) : Except Fault (String × List String) :=
  (b.fieldText name).map fun text => (name, Text.prefixTokens text)

/-- The document of a bookmark, for some fields. -/
def of (fields : List String) (b : Bookmark) : Except Fault Document :=
  ((Text.distinct fields).mapM (fieldTokens b)).map fun fs => ⟨b.id, fs⟩

/-- The places of a document: every field with each of its tokens. -/
def places (d : Document) : List (String × String) := d.fields.flatMap fun (name, tokens) => tokens.map (name, ·)

end Document

/-- The ids of the documents at each place, a place being a field with a token. -/
abbrev Postings := Std.HashMap (String × String) (List String)

namespace Postings

/-- The ids at a place. -/
def idsAt (p : Postings) (place : String × String) : List String := (p[place]?).getD []

/-- Adds an id at a place. -/
def post (id : String) (p : Postings) (place : String × String) : Postings :=
  let ids := p.idsAt place
  if ids.contains id then p else p.insert place (id :: ids)

/-- Removes an id from a place, and the place if no id is left there. -/
def unpost (id : String) (p : Postings) (place : String × String) : Postings :=
  match p[place]? with
  | none => p
  | some ids =>
    let ids := ids.erase id
    if ids.isEmpty then p.erase place else p.insert place ids

end Postings

/-- Documents and where their tokens occur. -/
structure Index where
  fields : List String := Bookmark.indexedFields
  documents : List Document := []
  postings : Postings := ∅
  deriving Inhabited

/-- Weights of fields. -/
abbrev Boost := List (String × Number)

/-- The weights of the fields unless others are given. -/
def defaultBoost : Boost :=
  [("title", .int 3), ("category", .int 2), ("keywords", .int 2), ("description", .int 1), ("url", .int 1),
    ("domain", .int 1)]

/-- The weight of a field; a field without a weight weighs one. -/
def Boost.weight (boost : Boost) (name : String) : Number :=
  match boost.find? fun entry => entry.1 == name with
  | some (_, w) => w
  | none => .int 1

namespace Index

/-- The number of documents. -/
def size (ix : Index) : Nat := ix.documents.length

/-- The document with an id. -/
def document? (ix : Index) (id : String) : Option Document := ix.documents.find? fun d => d.id == id

/-- A document with the id is in the index. -/
def contains (ix : Index) (id : String) : Bool := (ix.document? id).isSome

/-! ## Changes -/

/-- Adds a document. -/
def insert (ix : Index) (d : Document) : Index :=
  { ix with documents := ix.documents ++ [d], postings := d.places.foldl (Postings.post d.id) ix.postings }

/-- Removes the document with an id, if there is one. -/
def remove (ix : Index) (id : String) : Index :=
  match ix.document? id with
  | none => ix
  | some d =>
    { ix with
      documents := ix.documents.filter fun d => d.id != id
      postings := d.places.foldl (Postings.unpost id) ix.postings }

/-- Adds the document of a bookmark; a bookmark that has none changes nothing more. -/
def insertBookmark (ix : Index) (b : Bookmark) : Index × Except Fault Unit :=
  match Document.of ix.fields b with
  | .ok d => (ix.insert d, .ok ())
  | .error e => (ix, .error e)

/-- Adds a bookmark in place of the document with its id, if there is one. -/
def add (ix : Index) (b : Bookmark) : Index × Except Fault Unit :=
  (if ix.contains b.id then ix.remove b.id else ix).insertBookmark b

/-- Removes the document with the id of a bookmark and adds the bookmark. -/
def update (ix : Index) (b : Bookmark) : Index × Except Fault Unit := (ix.remove b.id).insertBookmark b

/-- The index without its documents. -/
def clear (ix : Index) : Index := { fields := ix.fields }

/-- The index of some bookmarks. -/
def ofBookmarks (bs : List Bookmark) : Index := bs.foldl (fun ix b => (ix.add b).1) {}

/-! ## Search -/

/-- A term has a word that the index could know. -/
def isSearchable (term : String) : Bool := !(Text.indexWords term).isEmpty

/-- The words of some terms, without repetition. -/
def queryWords (terms : List String) : List String := Text.distinct (terms.flatMap Text.indexWords)

/-- The fields to search: those asked for that the index has, all of them if none is asked for. -/
def searchFields (ix : Index) (fields : List String) : List String :=
  (if fields.isEmpty then ix.fields else fields).filter ix.fields.contains

/-- What a search adds up: the id of a document and a weight, for every field and word that the document matches. -/
def credits (ix : Index) (words fields : List String) (boost : Boost) : List (String × Float) :=
  fields.flatMap fun name =>
    let weight := (boost.weight name).toFloat
    words.flatMap fun word => (ix.postings.idsAt (name, word)).map (·, weight)

/-- A weight that is added to a score is beyond the doubles. -/
def overflows (ix : Index) (words fields : List String) (boost : Boost) : Bool :=
  fields.any fun name =>
    (boost.weight name).isBeyondDoubles && words.any fun word => !(ix.postings.idsAt (name, word)).isEmpty

/-- The sum of the weights that an id was credited with. -/
def total (credits : List (String × Float)) (id : String) : Float :=
  credits.foldl (fun sum credit => if credit.1 == id then sum + credit.2 else sum) 0

/-- The ids with their totals, for the ids that were credited at all, in the order of the documents. -/
def totals (documents : List Document) (credits : List (String × Float)) : List (String × Float) :=
  documents.filterMap fun d => if credits.any (fun c => c.1 == d.id) then some (d.id, total credits d.id) else none

/-- The higher score comes first. -/
def scoreOrder (a b : String × Float) : Bool := b.2 ≤ a.2

/-- The weights in use: those of the index itself unless others are given. -/
def weights (boost : Boost) : Boost := if boost.isEmpty then defaultBoost else boost

/-- The documents that have one of the terms as the beginning of a word in one of the fields, with scores: the
highest first, and in the order of the documents where scores are equal. -/
def ranking (ix : Index) (terms fields : List String) (boost : Boost) : List (String × Float) :=
  (totals ix.documents (ix.credits (queryWords terms) (ix.searchFields fields) (weights boost))).mergeSort scoreOrder

/-- The documents that match some terms, with scores, unless a weight cannot be added to a score. -/
def search (ix : Index) (terms fields : List String) (boost : Boost) : Except Fault (List (String × Float)) :=
  if ix.overflows (queryWords terms) (ix.searchFields fields) (weights boost) then
    .error (.outOfRange "int too large to convert to float")
  else .ok (ix.ranking terms fields boost)

end Index

end Shelfmark
