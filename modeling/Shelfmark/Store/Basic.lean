import Shelfmark.Store.Cache
import Shelfmark.Store.Records
import Shelfmark.Store.Shelf

/-!
# The store

The store keeps bookmarks, cached values and records of how alike bookmarks are.  `Store.delete` removes a bookmark
together with the records that name it.
-/

namespace Shelfmark

/-- A store, its records with scores of type `α`. -/
structure Store (α : Type) where
  isOpen : Bool := true
  shelf : Shelf := {}
  cache : Cache := {}
  records : RecordTable α := {}
  deriving Inhabited

namespace Store

variable {α : Type}

/-- Removes the bookmark with an id and all records that name it. -/
def delete (s : Store α) (id : String) : Store α :=
  { s with shelf := s.shelf.remove id, records := s.records.forget id }

end Store

end Shelfmark
