import Shelfmark.Similarity.Candidates
import Shelfmark.Time.Epoch

/-!
# Stored records

How alike bookmarks were found to be, one record for each pair of a bookmark and a related one.

* `RecordTable.replace`: the records of a bookmark.
* `RecordTable.of`: the records of a bookmark, the best first.
-/

namespace Shelfmark

open Similarity

/-- When a record was found out, as it is read: a time, no time, or something that is no time. -/
abbrev Stamp := Except Fault (Option Timestamp)

/-- A text that spells a number in plain digits. -/
def isPlainNumeral (cs : List Char) : Bool :=
  !cs.isEmpty && cs.all fun c => c.isDigit || c == '.' || c == '+' || c == '-' || c == 'e' || c == 'E'

/-- The stamp that a text stands for; a numeral counts milliseconds since the beginning of 1970. -/
def Stamp.ofText (s : String) : Stamp :=
  let plain := Text.trim s.toList
  match if isPlainNumeral plain then Decimal.readFloat? (String.ofList plain) else none with
  | some x => (Timestamp.ofMillis (.real x)).map some
  | none => Timestamp.ofJson (.str s)

/-- A record as it is stored. -/
structure StoredRecord (α : Type) where
  bookmarkId : String
  relatedId : String
  score : α
  sameDomain : Bool
  sameCategory : Bool
  stamp : Stamp

/-- The record of a bookmark as it is stored, with its time as a text. -/
def StoredRecord.of {α : Type} (bookmarkId : String) (r : Record α) : StoredRecord α :=
  ⟨bookmarkId, r.relatedId, r.score, r.sameDomain, r.sameCategory, .ofText r.computedAt.isoText⟩

/-- A stored record as it is read; a record without a time was found out now. -/
def StoredRecord.read {α : Type} (r : StoredRecord α) (now : Timestamp) : Except Fault (Record α) :=
  r.stamp.map fun t => ⟨r.bookmarkId, r.relatedId, r.score, r.sameDomain, r.sameCategory, t.getD now⟩

/-- The stored records, at most one for each pair of bookmarks. -/
structure RecordTable (α : Type) where
  rows : List (StoredRecord α) := []
  deriving Inhabited

namespace RecordTable

variable {α : Type}

/-- Adds a record in place of the one for the same pair, if there is one. -/
def put (t : RecordTable α) (r : StoredRecord α) : RecordTable α :=
  ⟨(t.rows.filter fun q => !(q.bookmarkId == r.bookmarkId && q.relatedId == r.relatedId)) ++ [r]⟩

/-- Removes the records of a bookmark. -/
def removeOf (t : RecordTable α) (id : String) : RecordTable α := ⟨t.rows.filter fun r => r.bookmarkId != id⟩

/-- Replaces the records of a bookmark. -/
def replace (t : RecordTable α) (id : String) (rs : List (Record α)) : RecordTable α :=
  (rs.map (StoredRecord.of id)).foldl put (t.removeOf id)

/-- Removes the records that name a bookmark on either side. -/
def forget (t : RecordTable α) (id : String) : RecordTable α :=
  ⟨t.rows.filter fun r => r.bookmarkId != id && r.relatedId != id⟩

/-- Replaces the stamps of the records of a bookmark. -/
def restamp (t : RecordTable α) (id : String) (stamp : Stamp) : RecordTable α :=
  ⟨t.rows.map fun r => if r.bookmarkId == id then { r with stamp } else r⟩

/-- The order in which records are read: the higher score first, and of equal scores the lesser related id. -/
def readOrder [Scalar α] (a b : StoredRecord α) : Bool :=
  Scalar.lt b.score a.score || (Scalar.le b.score a.score && a.relatedId ≤ b.relatedId)

/-- The stored records of a bookmark, the best first. -/
def rowsOf [Scalar α] (t : RecordTable α) (id : String) : List (StoredRecord α) :=
  (t.rows.filter fun r => r.bookmarkId == id).mergeSort readOrder

/-- The records of a bookmark, the best first. -/
def of [Scalar α] (t : RecordTable α) (id : String) (now : Timestamp) : Except Fault (List (Record α)) :=
  (t.rowsOf id).mapM fun r => r.read now

end RecordTable

end Shelfmark
