import Shelfmark.Engine.Storing
import Shelfmark.Index.Snapshot

/-!
# Keeping the index

The engine keeps one index of the bookmarks of the store, and a snapshot of it in the cache.

* `loadIndex`: the current index, from memory, from the snapshot or from the store.
* `rebuildIndex`, `addBookmark`, `updateBookmark`, `removeBookmark`: changes of the index.
* `forgetIndex`, `clearIndex`: the index is loaded anew next time.
-/

namespace Shelfmark.Engine

variable {α : Type}

/-! ## Snapshots -/

/-- The key of the snapshot of the index. -/
def indexKey : String := "flexsearch_index"

/-- What the keys of similar pairs begin with. -/
def pairsKey : String := "similar_bookmarks_"

/-- What the keys of values hold that depend on the bookmarks. -/
def similarityPattern : String := "similar_"

/-- The value that is cached for an index. -/
def indexEntry (ix : Index) (now : Timestamp) : Json :=
  .obj [("index", ix.snapshot), ("timestamp", .str now.isoText)]

/-- Caches the snapshot of an index. -/
def saveIndex (ix : Index) : Task α Unit := do
  let entry ← Task.look fun w => indexEntry ix w.now
  cacheValue indexKey entry none

/-- The snapshot in a cached value. -/
def snapshotIn (v : Json) : Json :=
  match v with
  | .obj _ => v.get "index"
  | v => v

/-- The index of a cached value; nothing if it has none that can be used. -/
def indexIn (room : Nat) (v : Json) : Except Fault (Option Index) :=
  if v.isNull then .ok none
  else
    match Index.ofSnapshot room (snapshotIn v) with
    | .ok ix => .ok (some ix)
    | .error e => if e.isOfSnapshot then .ok none else .error e

/-- The index of the cached snapshot; nothing if there is none that can be used. -/
def loadSnapshot : Task α (Option Index) := do
  match ← (cached indexKey).attempt with
  | .ok v =>
    let room ← Task.look (·.host.room)
    Task.ofExcept (indexIn room v)
  | .error e => if e.isRefusal then return none else Task.fail e

/-- Makes the index of all bookmarks of the store and caches its snapshot. -/
def buildIndex : Task α Index := do
  let bs ← allBookmarks
  let ix := Index.ofBookmarks bs
  saveIndex ix
  return ix

/-! ## The current index -/

/-- The number of the current index; an index is loaded if there is none. -/
def loadIndex : Task α Nat := do
  match ← Task.look (·.current) with
  | some i => return i
  | none =>
    Task.locked do
      match ← Task.look (·.current) with
      | some i => return i
      | none =>
        let ix ← match ← loadSnapshot with
          | some ix => pure ix
          | none => buildIndex
        Task.act (·.publish ix) Task.done

/-- Forgets all that is cached about similar bookmarks. -/
def forgetSimilar : Task α Unit := do
  let _ ← Task.locked (clearCached similarityPattern)

/-- Makes the index anew from the store, and counts its bookmarks. -/
def rebuildIndex : Task α Nat := do
  let ix ← Task.locked do
    let ix ← buildIndex
    let _ ← Task.act (·.publish ix) Task.done
    return ix
  forgetSimilar
  return ix.size

/-- Makes the index anew as `rebuildIndex` does, unless the bookmarks of the store fail a check. -/
def rebuildChecked (check : List Bookmark → Except Fault Unit) : Task α Nat := do
  let ix ← Task.locked do
    let bs ← allBookmarks
    Task.ofExcept (check bs)
    let ix := Index.ofBookmarks bs
    saveIndex ix
    let _ ← Task.act (·.publish ix) Task.done
    return ix
  forgetSimilar
  return ix.size

/-- Changes the index with a number. -/
def changeEdition (i : Nat) (f : Index → Index × Except Fault Unit) : Task α Unit := do
  let r ← Task.act (fun w =>
    let (ix, r) := f (w.edition i).index
    (r, w.setEdition i ix)) Task.done
  Task.ofExcept r

/-- Caches the snapshot of the index with a number. -/
def saveEdition (i : Nat) : Task α Unit := do
  let ix ← Task.look fun w => (w.edition i).index
  saveIndex ix

/-- Changes the current index, and its snapshot if asked to. -/
def changeIndex (f : Index → Index × Except Fault Unit) (save : Bool) : Task α Unit := do
  let i ← loadIndex
  Task.locked do
    changeEdition i f
    if save then saveEdition i
  forgetSimilar

/-- Adds a bookmark to the index. -/
def addBookmark (b : Bookmark) (save : Bool) : Task α Unit := changeIndex (·.add b) save

/-- Puts a new version of a bookmark into the index. -/
def updateBookmark (b : Bookmark) (save : Bool) : Task α Unit := changeIndex (·.update b) save

/-- Removes a bookmark from the index: whether it was there. -/
def removeBookmark (id : String) (save : Bool) : Task α Bool := do
  let i ← loadIndex
  let removed ← Task.locked do
    let removed ← Task.look fun w => (w.edition i).index.contains id
    changeEdition i fun ix => (ix.remove id, .ok ())
    if removed && save then saveEdition i
    return removed
  if removed then forgetSimilar
  return removed

/-- Forgets the index that is loaded. -/
def forgetIndex : Task α Unit := Task.change fun w => { w with current := none }

/-- Forgets the index that is loaded and its snapshot. -/
def clearIndex : Task α Unit :=
  Task.locked do
    forgetIndex
    cacheValue indexKey .null none

/-- The state of the index: whether it is loaded, the number of its documents and its fields. -/
def indexStatus (w : State α) : Bool × Nat × List String :=
  match w.currentIndex? with
  | some ix => (true, ix.size, ix.fields)
  | none => (false, 0, [])

/-- The state of the index as a JSON value. -/
def indexStatusJson (w : State α) : Json :=
  let (loaded, count, fields) := indexStatus w
  .obj [("initialized", .bool loaded), ("document_count", .int count), ("fields", Json.ofStrings fields)]

end Shelfmark.Engine
