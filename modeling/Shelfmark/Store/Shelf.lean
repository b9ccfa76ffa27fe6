import Shelfmark.Bookmark.Basic

/-!
# The shelf

The bookmarks that are kept, one for each id, and how they are listed.  They stand in the rows of a table, whose columns
repeat of each bookmark what look-ups go by; whatever is kept or removed, the columns agree with the bookmarks.

* `Shelf.put`, `Shelf.remove`: changes.
* `Shelf.get?`: the bookmark with an id.
* `Shelf.all`, `Shelf.ofDomain`, `Shelf.ofCategory`: lists, the newest bookmarks first.
-/

namespace Shelfmark

/-- A row of the table: a bookmark, and the columns that look-ups go by. -/
structure ShelfRow where
  id : String
  /-- The domain in lower case. -/
  domain : String
  /-- The category in lower case. -/
  category : String
  /-- The text of the time when the bookmark was added. -/
  added : String
  bookmark : Bookmark

namespace ShelfRow

/-- The row of a bookmark. -/
def of (b : Bookmark) : ShelfRow := ⟨b.id, Text.lower b.domain, Text.lower b.category, b.dateAdded.isoText, b⟩

/-- The columns are those of the bookmark. -/
def Agrees (r : ShelfRow) : Prop := r = of r.bookmark

/-- A row takes over the columns of another one for its id. -/
def overwrite (r new : ShelfRow) : ShelfRow :=
  { r with domain := new.domain, category := new.category, added := new.added, bookmark := new.bookmark }

theorem agrees_of_mem_nil : ∀ r ∈ ([] : List ShelfRow), r.Agrees := fun _ h => absurd h List.not_mem_nil

theorem overwrite_of_id {r new : ShelfRow} (h : r.id = new.id) : r.overwrite new = new := by
  cases new
  cases h
  rfl

/-- The order of lists: later times come first, as texts, and of bookmarks with one time the lesser id. -/
def order (a b : ShelfRow) : Bool := b.added < a.added || (a.added == b.added && a.id ≤ b.id)

end ShelfRow

/-- The table of the bookmarks that are kept: each id has one row, and the columns are those of the bookmarks. -/
structure Shelf where
  rows : List ShelfRow := []
  nodup_ids : (rows.map (·.id)).Nodup := by exact List.nodup_nil
  agrees : ∀ r ∈ rows, r.Agrees := by exact ShelfRow.agrees_of_mem_nil

namespace Shelf

instance : Inhabited Shelf := ⟨{}⟩

/-- The bookmarks that are kept. -/
def bookmarks (s : Shelf) : List Bookmark := s.rows.map (·.bookmark)

/-- Sets the row with its id in a table: over the one that is there, or else at the end. -/
def upsert (new : ShelfRow) : List ShelfRow → List ShelfRow
  | [] => [new]
  | r :: rest => if r.id == new.id then r.overwrite new :: rest else r :: upsert new rest

/-- The ids after setting a row: its own behind those that were there, or only those. -/
theorem ids_upsert (new : ShelfRow) : ∀ rows : List ShelfRow, (upsert new rows).map (·.id) =
    if new.id ∈ rows.map (·.id) then rows.map (·.id) else rows.map (·.id) ++ [new.id]
  | [] => rfl
  | r :: rest => by
    unfold upsert
    by_cases h : r.id = new.id
    · simp [h, ShelfRow.overwrite_of_id h]
    · have hne : new.id ≠ r.id := fun he => h he.symm
      simp only [beq_iff_eq, h, if_false, List.map_cons, ids_upsert new rest, List.mem_cons, hne, false_or]
      split <;> rfl

/-- Setting a row keeps the ids different. -/
theorem nodup_ids_upsert (new : ShelfRow) {rows : List ShelfRow} (h : (rows.map (·.id)).Nodup) :
    ((upsert new rows).map (·.id)).Nodup := by
  rw [ids_upsert]
  split
  · exact h
  · rename_i hnew
    refine List.nodup_append.mpr ⟨h, List.pairwise_singleton _ _, fun a ha b hb hab => hnew ?_⟩
    rwa [← List.mem_singleton.mp hb, ← hab]

/-- The row that is set is new, and no other. -/
theorem mem_upsert {new q : ShelfRow} : ∀ {rows : List ShelfRow}, q ∈ upsert new rows → q = new ∨ q ∈ rows
  | [], h => .inl (List.mem_singleton.mp h)
  | r :: rest, h => by
    unfold upsert at h
    split at h
    · rename_i hid
      rw [ShelfRow.overwrite_of_id (by simpa using hid)] at h
      exact (List.mem_cons.mp h).imp_right (List.mem_cons_of_mem r)
    · rcases List.mem_cons.mp h with rfl | h
      · exact .inr List.mem_cons_self
      · exact (mem_upsert h).imp_right (List.mem_cons_of_mem r)

/-- Keeps a bookmark in place of the one with its id, if there is one. -/
def put (s : Shelf) (b : Bookmark) : Shelf where
  rows := upsert (.of b) s.rows
  nodup_ids := nodup_ids_upsert (.of b) s.nodup_ids
  agrees r h := by
    rcases mem_upsert h with rfl | h
    · rfl
    · exact s.agrees r h

/-- Keeps some bookmarks, one after the other. -/
def putAll (s : Shelf) (bs : List Bookmark) : Shelf := bs.foldl put s

/-- Removes the bookmark with an id. -/
def remove (s : Shelf) (id : String) : Shelf where
  rows := s.rows.filter fun r => r.id != id
  nodup_ids := s.nodup_ids.sublist (List.filter_sublist.map _)
  agrees r h := s.agrees r (List.mem_filter.mp h).1

/-- The bookmark with an id. -/
def get? (s : Shelf) (id : String) : Option Bookmark := (s.rows.find? fun r => r.id == id).map (·.bookmark)

/-- A bookmark with the id is kept. -/
def contains (s : Shelf) (id : String) : Bool := (s.get? id).isSome

/-- All bookmarks, the newest first. -/
def all (s : Shelf) : List Bookmark := (s.rows.mergeSort ShelfRow.order).map (·.bookmark)

/-- The first members of a list, all of them without a limit or with a negative one. -/
def cutOff {α : Type} (limit : Option Int) (xs : List α) : List α :=
  match limit with
  | none => xs
  | some n => if n < 0 then xs else xs.take n.toNat

/-- The first members of a list, if the limit is a number of 64 bits. -/
def limited {α : Type} (limit : Option Int) (xs : List α) : Except Fault (List α) :=
  if limit.all Number.fitsWord then .ok (cutOff limit xs)
  else .error (.outOfRange "int too large to convert to SQLite INTEGER")

/-- The bookmarks with a value in a column, the newest first. -/
def withColumn (s : Shelf) (column : ShelfRow → String) (value : String) (limit : Option Int) :
    Except Fault (List Bookmark) :=
  (limited limit ((s.rows.filter fun r => column r == value).mergeSort ShelfRow.order)).map fun rows =>
    rows.map (·.bookmark)

/-- The bookmarks of a domain, whatever the case, the newest first. -/
def ofDomain (s : Shelf) (domain : String) (limit : Option Int) : Except Fault (List Bookmark) :=
  s.withColumn (·.domain) (Text.lower domain) limit

/-- The bookmarks of a category, whatever the case, the newest first. -/
def ofCategory (s : Shelf) (category : String) (limit : Option Int) : Except Fault (List Bookmark) :=
  s.withColumn (·.category) (Text.lower category) limit

end Shelf

end Shelfmark
