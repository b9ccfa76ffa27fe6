import Shelfmark.Bookmark.Record
import Shelfmark.Engine.Task
import Shelfmark.Time.Span

/-!
# Using the store

The operations of the store as tasks.

* `allBookmarks`, `bookmarkWithId`, `bookmarksOfDomain`, `bookmarksOfCategory`: look-ups of bookmarks.
* `keepAll`, `keepOne`, `deleteBookmark`: changes of the bookmarks.
* `cached`, `cacheValue`, `clearCached`: the cache.
* `storedRecords`, `storeRecords`, `clearRecords`: the records of how alike bookmarks are.
* `closeStore`, `openStore`, `letPass`: what happens around the store.
-/

namespace Shelfmark.Engine

variable {α : Type}

/-! ## Bookmarks

The store keeps the record of each bookmark, so what is looked up is read from it. -/

/-- All bookmarks, the newest first. -/
def allBookmarks : Task α (List Bookmark) :=
  Task.store .getAll fun w => (w.store.shelf.all.mapM Bookmark.reread, w)

/-- The bookmark with an id. -/
def bookmarkWithId (id : String) : Task α (Option Bookmark) :=
  Task.store .getOne fun w => ((w.store.shelf.get? id).mapM Bookmark.reread, w)

/-- The bookmarks of a domain. -/
def bookmarksOfDomain (domain : String) (limit : Option Int) : Task α (List Bookmark) :=
  Task.store .getByDomain fun w => ((w.store.shelf.ofDomain domain limit).bind (·.mapM Bookmark.reread), w)

/-- The bookmarks of a category. -/
def bookmarksOfCategory (category : String) (limit : Option Int) : Task α (List Bookmark) :=
  Task.store .getByCategory fun w => ((w.store.shelf.ofCategory category limit).bind (·.mapM Bookmark.reread), w)

/-- Keeps some bookmarks, and counts them. -/
def keepAll (bs : List Bookmark) : Task α Nat :=
  Task.store .upsertMany fun w =>
    (.ok bs.length, { w with store := { w.store with shelf := w.store.shelf.putAll bs } })

/-- Fails if an operation of the store is out of order. -/
def heed (op : StoreOperation) : Task α Unit :=
  Task.act (fun w => (w.faultOf op, w)) fun
    | some message => Task.fail (.storeDown message)
    | none => Task.done ()

/-- Keeps one bookmark. -/
def keepOne (b : Bookmark) : Task α Unit := do
  heed .upsertOne
  let _ ← keepAll [b]

/-- Deletes the bookmark with an id and the records that name it: whether it was there. -/
def deleteBookmark (id : String) : Task α Bool :=
  Task.store .delete fun w => (.ok (w.store.shelf.contains id), { w with store := w.store.delete id })

/-! ## The cache -/

/-- The cached value of a key. -/
def cached (key : String) : Task α Json :=
  Task.store .getCache fun w =>
    let (v, cache) := w.store.cache.get w.now key
    (v, { w with store := { w.store with cache } })

/-- A value can be written as a text, and its lifetime into a column. -/
def checkEntry (room : Nat) (v : Json) (lifetime : Option Number) : Except Fault Unit := do
  v.checkBounds room
  if lifetime.all Number.fitsColumn then .ok ()
  else .error (.outOfRange "int too large to convert to SQLite INTEGER")

/-- Caches a value. -/
def cacheValue (key : String) (v : Json) (lifetime : Option Number) : Task α Unit :=
  Task.store .setCache fun w =>
    match checkEntry w.host.room v lifetime with
    | .ok () => (.ok (), { w with store := { w.store with cache := w.store.cache.set w.now key v lifetime } })
    | .error e => (.error e, w)

/-- Removes the cached values whose keys hold a pattern, and counts them. -/
def clearCached (pattern : String) : Task α Nat :=
  Task.store .clearCache fun w =>
    if w.store.cache.refuses pattern then (.error .wildcardTooLong, w)
    else
      let cache := w.store.cache.clear pattern
      (.ok (w.store.cache.entries.length - cache.entries.length), { w with store := { w.store with cache } })

/-- Replaces what stands under a key of the cache: whether it is there. -/
def overwriteCached (key : String) (content : CacheContent) : Task α Bool :=
  Task.act (fun w => ((w.store.cache.entry? key).isSome,
    { w with store := { w.store with cache := w.store.cache.overwrite key content } })) Task.done

/-! ## Records -/

/-- The stored records of a bookmark. -/
def storedRecords [Scalar α] (id : String) : Task α (List (Similarity.Record α)) :=
  Task.store .getSimilarities fun w => (w.store.records.of id w.now, w)

/-- Stores the records of a bookmark. -/
def storeRecords (id : String) (rs : List (Similarity.Record α)) : Task α Unit :=
  Task.store .storeSimilarities fun w =>
    (.ok (), { w with store := { w.store with records := w.store.records.replace id rs } })

/-- Removes all records. -/
def clearRecords : Task α Unit :=
  Task.store .clearSimilarities fun w => (.ok (), { w with store := { w.store with records := {} } })

/-- Replaces the stamps of the stored records of a bookmark. -/
def restampRecords (id : String) (stamp : Stamp) : Task α Unit :=
  Task.change fun w => { w with store := { w.store with records := w.store.records.restamp id stamp } }

/-! ## Around the store -/

/-- Closes the store. -/
def closeStore : Task α Unit := do
  heed .close
  Task.change fun w => { w with store := { w.store with isOpen := false } }

/-- Opens a new store, which is empty. -/
def openStore : Task α Unit := do
  heed .open
  Task.change fun w => { w with store := {} }

/-- Puts an operation of the store out of order; `message` is what it says from now on. -/
def putOutOfOrder (op : StoreOperation) (message : String) : Task α Unit :=
  Task.change fun w => { w with faults := (op, message) :: w.faults }

/-- Puts all operations of the store in order again. -/
def putInOrder : Task α Unit := Task.change fun w => { w with faults := [] }

/-- Lets some seconds pass, and tells the time. -/
def letPass (seconds : Number) : Task α Timestamp := do
  let now ← Task.look (·.now)
  let now ← Task.ofExcept (now.secondsAfter seconds)
  Task.change fun w => { w with now }
  return now

end Shelfmark.Engine
