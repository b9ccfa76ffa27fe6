import Shelfmark.Engine.Indexing
import Shelfmark.Proofs.Engine.Lookups
import Shelfmark.Proofs.Json.Bounds
import Shelfmark.Proofs.Store.Cache

/-!
# Loading the index

- `Loading`: how the index is loaded, with everything that may happen on the way: it is in memory, or it is restored
  from the cached snapshot, or it is built from the bookmarks of the store, or it cannot be loaded (`loading`);
- there is room for every snapshot (`checkEntry_indexEntry`);
- loading changes nothing but the cache, the lock and which index is current (`Loading.sameShelf`).
-/

namespace Shelfmark.Engine

variable {α : Type} {w w' : State α} {ix : Index}

/-! ## The parts of loading -/

/-- The state with another cache. -/
def State.putCache (w : State α) (cache : Cache) : State α := { w with store := { w.store with cache } }

/-- The state with another cache, and the lock free. -/
def State.withCache (w : State α) (cache : Cache) : State α := (w.putCache cache).unlock

/-- The state in which an index is the current one. -/
def State.withIndex (w : State α) (ix : Index) : State α := (w.publish ix).2

@[simp] theorem edition_withIndex (w : State α) (ix : Index) :
    (w.withIndex ix).edition w.editions.length = ⟨ix, false⟩ := by
  simp [State.withIndex, State.publish, State.edition]

/-- What the cache says about the index, and the cache afterwards. -/
def State.indexLookup (w : State α) : Except Fault Json × Cache := w.store.cache.get w.now indexKey

/-- The index in what the cache says, nothing if there is none that can be used; a fault of the reading that is not
taken for that. -/
def indexFound (room : Nat) : Except Fault Json → Except Fault (Option Index)
  | .ok v => indexIn room v
  | .error e => if e.isRefusal then .ok none else .error e

/-- The index in what is cached for an index. -/
theorem indexIn_indexEntry {room : Nat} {ix' : Index} (h : Index.ofSnapshot room ix.snapshot = .ok ix')
    (now : Timestamp) : indexIn room (indexEntry ix now) = .ok (some ix') := by
  have hsnapshot : snapshotIn (indexEntry ix now) = ix.snapshot := rfl
  have hfound : (indexEntry ix now).isNull = false := rfl
  simp only [indexIn, hsnapshot, hfound, h, Bool.false_eq_true, if_false]

/-- An index that is found is read from the snapshot. -/
theorem ofSnapshot_of_indexIn {room : Nat} {v : Json} (h : indexIn room v = .ok (some ix)) :
    Index.ofSnapshot room (snapshotIn v) = .ok ix := by
  unfold indexIn at h
  split at h
  · cases h
  · split at h
    · rename_i hread
      cases h
      exact hread
    · split at h <;> cases h

/-- The index in the cache. -/
def State.cachedIndex (w : State α) : Except Fault (Option Index) := indexFound w.host.room w.indexLookup.1

theorem run_loadSnapshot (h : w.Ready .getCache) : loadSnapshot.run w =
    (w.cachedIndex, w.putCache w.indexLookup.2) := by
  simp only [loadSnapshot, Task.run_bind, Task.run_attempt, cached, run_store h, Task.follow_ok,
    State.cachedIndex, State.indexLookup]
  cases (w.store.cache.get w.now indexKey).1 with
  | ok v => exact Task.run_ofExcept _ _
  | error e =>
    simp only [indexFound]
    cases e.isRefusal <;> rfl

theorem run_loadSnapshot_not_ready (h : ¬w.Ready .getCache) : ∃ e, loadSnapshot.run w = (.error e, w) := by
  obtain ⟨e, he, hrun⟩ := run_store_not_ready h
  refine ⟨e, ?_⟩
  simp only [loadSnapshot, Task.run_bind, Task.run_attempt, cached, hrun, Task.follow_ok, he,
    Bool.false_eq_true, if_false]
  rfl

/-- The index of all bookmarks of the store. -/
def State.builtIndex (w : State α) : Index := Index.ofBookmarks w.store.shelf.all

/-- There is room for the snapshot of an index. -/
theorem checkEntry_indexEntry (host : Host) (ix : Index) (now : Timestamp) :
    checkEntry host.room (indexEntry ix now) none = .ok () := by
  have hdocument : ∀ d : Document, Json.Within 2 (Index.documentJson d) := fun d =>
    .obj fun f hf => by
      obtain ⟨t, _, rfl⟩ := List.mem_map.mp hf
      exact .ofStrings t.2
  have hdocuments : Json.Within 3 (.obj (ix.documents.map fun d => (d.id, Index.documentJson d))) :=
    .obj fun f hf => by
      obtain ⟨d, _, rfl⟩ := List.mem_map.mp hf
      exact hdocument d
  have hversion : Json.Within 3 (.int Index.snapshotVersion) := .int (by decide +kernel)
  have hsnapshot : Json.Within 4 ix.snapshot := .obj (by
    simp only [List.forall_mem_cons]
    exact ⟨hversion, .ofStrings ix.fields, hdocuments, fun _ hf => absurd hf List.not_mem_nil⟩)
  have hentry : Json.Within 5 (indexEntry ix now) := .obj (by
    simp only [List.forall_mem_cons]
    exact ⟨hsnapshot, .str _, fun _ hf => absurd hf List.not_mem_nil⟩)
  have hroom := host.room_enough
  rw [checkEntry, Json.checkBounds_eq_ok_iff.mpr (hentry.mono (by omega))]
  rfl

/-- A value is cached if it is spelled and its lifetime fits into a column. -/
theorem checkEntry_eq_ok_iff {room : Nat} {v : Json} {lifetime : Option Number} :
    checkEntry room v lifetime = .ok () ↔ Json.Within room v ∧ lifetime.all Number.fitsColumn = true := by
  rw [checkEntry, bind_eq_ok, ← Json.checkBounds_eq_ok_iff]
  constructor
  · rintro ⟨_, hv, hl⟩
    refine ⟨hv, ?_⟩
    by_contra hn
    rw [if_neg hn] at hl
    cases hl
  · rintro ⟨hv, hl⟩
    exact ⟨(), hv, if_pos hl⟩

theorem run_cacheValue (h : w.Ready .setCache) {key : String} {v : Json} {lifetime : Option Number}
    (hv : checkEntry w.host.room v lifetime = .ok ()) :
    (cacheValue key v lifetime).run w = (.ok (), w.putCache (w.store.cache.set w.now key v lifetime)) := by
  simp only [cacheValue, run_store h, hv]
  rfl

theorem run_cacheValue_refused (h : w.Ready .setCache) {key : String} {v : Json} {lifetime : Option Number} {e : Fault}
    (hv : checkEntry w.host.room v lifetime = .error e) : (cacheValue key v lifetime).run w = (.error e, w) := by
  simp only [cacheValue, run_store h, hv]

theorem run_clearCached (h : w.Ready .clearCache) {pattern : String} (hp : w.store.cache.refuses pattern = false) :
    (clearCached pattern).run w =
      (.ok (w.store.cache.entries.length - (w.store.cache.clear pattern).entries.length),
        w.putCache (w.store.cache.clear pattern)) := by
  simp only [clearCached, run_store h, hp, Bool.false_eq_true, if_false]
  rfl

theorem run_clearCached_refused (h : w.Ready .clearCache) {pattern : String}
    (hp : w.store.cache.refuses pattern = true) : (clearCached pattern).run w = (.error .wildcardTooLong, w) := by
  simp only [clearCached, run_store h, hp, if_true]

/-- The pattern of what depends on the bookmarks is short. -/
theorem refuses_similarity (c : Cache) : c.refuses similarityPattern = false :=
  Cache.refuses_of_short (by decide +kernel)

theorem run_saveIndex (h : w.Ready .setCache) (ix : Index) : (saveIndex ix).run w =
    (.ok (), w.putCache (w.store.cache.set w.now indexKey (indexEntry ix w.now) none)) := by
  simp only [saveIndex, Task.run_bind, Task.run_look, Task.follow_ok]
  exact run_cacheValue h (checkEntry_indexEntry w.host ix w.now)

theorem run_buildIndex (ha : w.Ready .getAll) (hs : w.Ready .setCache) : buildIndex.run w = (.ok w.builtIndex,
    w.putCache (w.store.cache.set w.now indexKey (indexEntry w.builtIndex w.now) none)) := by
  simp only [buildIndex, Task.run_bind, run_allBookmarks ha, Task.follow_ok, run_saveIndex hs, Task.run_pure]
  rfl

theorem run_buildIndex_not_ready (h : ¬(w.Ready .getAll ∧ w.Ready .setCache)) :
    ∃ e, buildIndex.run w = (.error e, w) := by
  by_cases ha : w.Ready .getAll
  · have hs : ¬w.Ready .setCache := fun hs => h ⟨ha, hs⟩
    obtain ⟨e, _, hrun⟩ := run_store_not_ready hs
    exact ⟨e, by simp only [buildIndex, Task.run_bind, run_allBookmarks ha, Task.follow_ok, saveIndex,
      Task.run_look, cacheValue, hrun, Task.follow_error]⟩
  · obtain ⟨e, _, hrun⟩ := run_store_not_ready ha
    exact ⟨e, by simp only [buildIndex, Task.run_bind, allBookmarks, hrun, Task.follow_error]⟩

/-! ## Loading -/

/-- How the index is loaded: the answer and the state afterwards. -/
inductive Loading (w : State α) : Except Fault Nat × State α → Prop
  /-- It is in memory. -/
  | memory {i : Nat} (h : w.current = some i) : Loading w (.ok i, w)
  /-- It is restored from the cached snapshot. -/
  | restored {ix : Index} (h : w.current = none) (hc : w.Ready .getCache) (hs : w.cachedIndex = .ok (some ix)) :
      Loading w (.ok w.editions.length, (w.withCache w.indexLookup.2).withIndex ix)
  /-- It is built from the bookmarks of the store, and its snapshot is cached. -/
  | built (h : w.current = none) (hc : w.Ready .getCache) (hs : w.cachedIndex = .ok none) (ha : w.Ready .getAll)
      (hset : w.Ready .setCache) : Loading w (.ok w.editions.length, (w.withCache (w.indexLookup.2.set w.now indexKey
        (indexEntry w.builtIndex w.now) none)).withIndex w.builtIndex)
  /-- The cache cannot be read. -/
  | unread {e : Fault} (h : w.current = none) (hc : ¬w.Ready .getCache) :
      Loading w (.error e, w.withCache w.store.cache)
  /-- What is cached is neither an index nor taken for none. -/
  | unusable {e : Fault} (h : w.current = none) (hc : w.Ready .getCache) (hs : w.cachedIndex = .error e) :
      Loading w (.error e, w.withCache w.indexLookup.2)
  /-- The cache has no snapshot that can be used, and the index cannot be built. -/
  | unbuilt {e : Fault} (h : w.current = none) (hc : w.Ready .getCache) (hs : w.cachedIndex = .ok none)
      (hb : ¬(w.Ready .getAll ∧ w.Ready .setCache)) : Loading w (.error e, w.withCache w.indexLookup.2)

/-- Loading the index under the lock. -/
def loadAnew : Task α Nat := do
  match ← Task.look (·.current) with
  | some i => return i
  | none =>
    let ix ← match ← loadSnapshot with
      | some ix => pure ix
      | none => buildIndex
    Task.act (·.publish ix) Task.done

section Anew

variable (hw : w.lock.current = none)
include hw

theorem run_loadAnew_restored (hc : w.Ready .getCache) (hs : w.cachedIndex = .ok (some ix)) :
    loadAnew.run w.lock = (.ok w.editions.length, (w.lock.putCache w.indexLookup.2).withIndex ix) := by
  have hsnapshot := run_loadSnapshot (w := w.lock) hc
  have hs' : w.lock.cachedIndex = .ok (some ix) := hs
  simp only [loadAnew, Task.run_bind, Task.run_look, hw, hsnapshot, Task.follow_ok, hs', Task.run_pure, Task.run_act]
  rfl

theorem run_loadAnew_built (hc : w.Ready .getCache) (hs : w.cachedIndex = .ok none) (ha : w.Ready .getAll)
    (hset : w.Ready .setCache) : loadAnew.run w.lock = (.ok w.editions.length, (w.lock.putCache
      (w.indexLookup.2.set w.now indexKey (indexEntry w.builtIndex w.now) none)).withIndex w.builtIndex) := by
  have hsnapshot := run_loadSnapshot (w := w.lock) hc
  have hs' : w.lock.cachedIndex = .ok none := hs
  have hbuild := run_buildIndex (w := w.lock.putCache w.lock.indexLookup.2) ha hset
  simp only [loadAnew, Task.run_bind, Task.run_look, hw, hsnapshot, Task.follow_ok, hs', hbuild, Task.run_act]
  rfl

theorem run_loadAnew_unbuilt (hc : w.Ready .getCache) (hs : w.cachedIndex = .ok none)
    (hb : ¬(w.Ready .getAll ∧ w.Ready .setCache)) :
    ∃ e, loadAnew.run w.lock = (.error e, w.lock.putCache w.indexLookup.2) := by
  have hsnapshot := run_loadSnapshot (w := w.lock) hc
  have hs' : w.lock.cachedIndex = .ok none := hs
  obtain ⟨e, hbuild⟩ := run_buildIndex_not_ready (w := w.lock.putCache w.lock.indexLookup.2) hb
  refine ⟨e, ?_⟩
  simp only [loadAnew, Task.run_bind, Task.run_look, hw, hsnapshot, Task.follow_ok, hs', hbuild, Task.follow_error]
  rfl

theorem run_loadAnew_unusable {e : Fault} (hc : w.Ready .getCache) (hs : w.cachedIndex = .error e) :
    loadAnew.run w.lock = (.error e, w.lock.putCache w.indexLookup.2) := by
  have hsnapshot := run_loadSnapshot (w := w.lock) hc
  have hs' : w.lock.cachedIndex = .error e := hs
  simp only [loadAnew, Task.run_bind, Task.run_look, hw, hsnapshot, Task.follow_ok, hs', Task.follow_error]
  rfl

theorem run_loadAnew_unread (hc : ¬w.Ready .getCache) : ∃ e, loadAnew.run w.lock = (.error e, w.lock) := by
  obtain ⟨e, hsnapshot⟩ := run_loadSnapshot_not_ready (w := w.lock) hc
  exact ⟨e, by simp only [loadAnew, Task.run_bind, Task.run_look, hw, hsnapshot, Task.follow_ok, Task.follow_error]⟩

end Anew

/-- **Loading the index runs in one of these ways.** -/
theorem loading (w : State α) : Loading w (loadIndex.run w) := by
  cases hw : w.current with
  | some i =>
    have hrun : loadIndex.run w = (.ok i, w) := by
      simp only [loadIndex, Task.run_bind, Task.run_look, Task.follow_ok, hw, Task.run_pure]
    rw [hrun]
    exact .memory hw
  | none =>
    have hrun : loadIndex.run w = ((loadAnew.run w.lock).1, (loadAnew.run w.lock).2.unlock) := by
      simp only [loadIndex, Task.run_bind, Task.run_look, Task.follow_ok, hw, Task.run_locked]
      rfl
    rw [hrun]
    by_cases hc : w.Ready .getCache
    · rcases hs : w.cachedIndex with e | _ | ix
      · rw [run_loadAnew_unusable hw hc hs]
        exact .unusable hw hc hs
      · by_cases hb : w.Ready .getAll ∧ w.Ready .setCache
        · rw [run_loadAnew_built hw hc hs hb.1 hb.2]
          exact .built hw hc hs hb.1 hb.2
        · obtain ⟨e, he⟩ := run_loadAnew_unbuilt hw hc hs hb
          rw [he]
          exact .unbuilt hw hc hs hb
      · rw [run_loadAnew_restored hw hc hs]
        exact .restored hw hc hs
    · obtain ⟨e, he⟩ := run_loadAnew_unread hw hc
      rw [he]
      exact .unread hw hc

/-! ## What loading leaves alone -/

/-- The states differ in the cache, the loaded indexes and the lock at most. -/
structure SameShelf (w w' : State α) : Prop where
  host : w'.host = w.host
  shelf : w'.store.shelf = w.store.shelf
  isOpen : w'.store.isOpen = w.store.isOpen
  faults : w'.faults = w.faults
  now : w'.now = w.now
  settings : w'.settings = w.settings

theorem SameShelf.refl (w : State α) : SameShelf w w := ⟨rfl, rfl, rfl, rfl, rfl, rfl⟩

theorem SameShelf.trans {w'' : State α} (h : SameShelf w w') (h' : SameShelf w' w'') : SameShelf w w'' :=
  ⟨h'.host.trans h.host, h'.shelf.trans h.shelf, h'.isOpen.trans h.isOpen, h'.faults.trans h.faults,
    h'.now.trans h.now, h'.settings.trans h.settings⟩

theorem SameShelf.ready (h : SameShelf w w') {op : StoreOperation} : w'.Ready op ↔ w.Ready op := by
  unfold State.Ready State.faultOf
  rw [h.faults, h.isOpen]

theorem Loading.sameShelf {r : Except Fault Nat × State α} (h : Loading w r) : SameShelf w r.2 := by
  cases h <;> exact ⟨rfl, rfl, rfl, rfl, rfl, rfl⟩

theorem loadIndex_sameShelf (w : State α) : SameShelf w (loadIndex.run w).2 := (loading w).sameShelf

/-! ## Loading twice -/

theorem loadIndex_of_current {i : Nat} (h : w.current = some i) : loadIndex.run w = (.ok i, w) := by
  have hl := loading w
  generalize loadIndex.run w = r at hl
  cases hl with
  | memory hi => rw [h] at hi; cases hi; rfl
  | restored hn | built hn | unread hn | unusable hn | unbuilt hn => rw [h] at hn; cases hn

/-- An index that was loaded is the current one. -/
theorem Loading.current {r : Except Fault Nat × State α} (h : Loading w r) {i : Nat} (hr : r.1 = .ok i) :
    r.2.current = some i := by
  cases h with
  | memory hi => cases hr; exact hi
  | restored | built => cases hr; rfl
  | unread | unusable | unbuilt => cases hr

/-- What the cache says about the index, it says again. -/
theorem cachedIndex_withCache (w : State α) : (w.withCache w.indexLookup.2).cachedIndex = w.cachedIndex :=
  congrArg (fun r : Except Fault Json × Cache => indexFound w.host.room r.1) (Cache.get_get _ _ _)

/-- Where loading failed it fails again. -/
theorem Loading.fails {r : Except Fault Nat × State α} (h : Loading w r) {e : Fault} (hr : r.1 = .error e) :
    ∃ e', (loadIndex.run r.2).1 = .error e' := by
  have hl := loading r.2
  generalize loadIndex.run r.2 = r' at hl
  cases h with
  | memory | restored | built => cases hr
  | unread hn hc =>
    cases hl with
    | memory hi => exact absurd (hn.symm.trans hi) (by simp)
    | restored _ hc' | built _ hc' | unusable _ hc' | unbuilt _ hc' => exact absurd hc' hc
    | unread => exact ⟨_, rfl⟩
  | unusable hn hc hs =>
    have hs' := (cachedIndex_withCache w).trans hs
    cases hl with
    | memory hi => exact absurd (hn.symm.trans hi) (by simp)
    | restored _ _ hix | built _ _ hix => exact absurd (hs'.symm.trans hix) (by simp)
    | unread | unusable | unbuilt => exact ⟨_, rfl⟩
  | unbuilt hn hc hs hb =>
    have hs' := (cachedIndex_withCache w).trans hs
    cases hl with
    | memory hi => exact absurd (hn.symm.trans hi) (by simp)
    | restored _ _ hix => exact absurd (hs'.symm.trans hix) (by simp)
    | built _ _ _ ha hset => exact absurd ⟨ha, hset⟩ hb
    | unread | unusable | unbuilt => exact ⟨_, rfl⟩

end Shelfmark.Engine
