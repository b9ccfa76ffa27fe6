import Shelfmark.Proofs.Engine.Answers
import Shelfmark.Proofs.Index.Mirrors
import Shelfmark.Proofs.Store.Shelf

/-!
# Index and store in step

Index and store are in step (`InStep`) if the index in memory and the one in the cached snapshot, as far as they are
there, hold the documents of the bookmarks in the store and no others, and the snapshot of an index in memory is cached.
Between a change of a bookmark and the report of it to the engine, the document of this bookmark is left out of account.

- A change of the store leaves it pending (`InStep.keep`, `InStep.delete`);
- loading, building and forgetting the index keep index and store in step, and so do searches (`InStep.load`,
  `InStep.rebuild`, `InStep.forget`, `InStep.clear`, `InStep.search`);
- the report of the change completes it (`InStep.update`, `InStep.add`, `InStep.remove`).
-/

namespace Shelfmark.Engine

/-- A change of a bookmark in the store. -/
inductive Write
  | keep (b : Bookmark)
  | delete (id : String)

namespace Write

/-- The id of the changed bookmark. -/
def id : Write → String
  | keep b => b.id
  | delete id => id

/-- The change was made. -/
def IsDone : Write → Shelf → Prop
  | keep b, s => b ∈ s.bookmarks
  | delete id, s => ∀ c ∈ s.bookmarks, c.id ≠ id

end Write

variable {α : Type} {w w' : State α} {ix : Index} {b : Bookmark} {id : String} {pending : Option Write} {s : Shelf}

/-! ## The invariant -/

/-- A value stands in the cache as the snapshot of the index, and stays there. -/
def Cached (c : Cache) (v : Json) : Prop := ∃ since, c.entry? indexKey = some ⟨indexKey, .value v, since, none⟩

/-- The cached snapshot is that of an index. -/
def CachedIndex (c : Cache) (ix : Index) : Prop := ∃ now, Cached c (indexEntry ix now)

/-- The index mirrors the bookmarks of a shelf, apart from the one with a pending change. -/
def Reflects (pending : Option Write) (ix : Index) (s : Shelf) : Prop := ix.Mirrors (pending.map Write.id) s.bookmarks

/-- The store is in order and the pending change made; index and snapshot, as far as they are there, mirror the
bookmarks, and the snapshot of an index in memory is cached. -/
structure InStep (pending : Option Write) (w : State α) : Prop where
  faults : w.faults = []
  isOpen : w.store.isOpen = true
  isDone : ∀ x ∈ pending, x.IsDone w.store.shelf
  cached : w.store.cache.entry? indexKey = none ∨ Cached w.store.cache .null ∨
    ∃ ix, CachedIndex w.store.cache ix ∧ Reflects pending ix w.store.shelf
  loaded : ∀ i, w.current = some i → i < w.editions.length ∧ CachedIndex w.store.cache (w.edition i).index ∧
    Reflects pending (w.edition i).index w.store.shelf

theorem InStep.ready (h : InStep pending w) (op : StoreOperation) : w.Ready op := by
  simp [State.Ready, State.faultOf, h.faults, h.isOpen]

theorem cached_set (c : Cache) (now : Timestamp) (v : Json) : Cached (c.set now indexKey v none) v :=
  ⟨now, Cache.entry_set⟩

/-- The snapshot of an index says all that is cached of it. -/
theorem CachedIndex.of_snapshot_eq {c : Cache} {ix' : Index} (h : CachedIndex c ix) (hs : ix'.snapshot = ix.snapshot) :
    CachedIndex c ix' := by
  obtain ⟨now, hc⟩ := h
  exact ⟨now, by rwa [indexEntry, hs, ← indexEntry]⟩

/-- What an operation may change that does not touch the index. -/
theorem InStep.of_eq (h : InStep pending w) (hshelf : w'.store.shelf = w.store.shelf)
    (hentry : w'.store.cache.entry? indexKey = w.store.cache.entry? indexKey) (hopen : w'.store.isOpen = w.store.isOpen)
    (hfaults : w'.faults = w.faults) (heditions : w'.editions = w.editions)
    (hcurrent : w'.current = w.current) : InStep pending w' := by
  refine ⟨hfaults.trans h.faults, hopen.trans h.isOpen, hshelf ▸ h.isDone, ?_, fun i hi => ?_⟩
  · simpa only [Cached, CachedIndex, hentry, hshelf] using h.cached
  · simpa only [Cached, CachedIndex, hentry, State.edition, heditions, hshelf] using h.loaded i (hcurrent ▸ hi)

/-- The index in memory may be forgotten. -/
theorem InStep.of_forgotten (h : InStep pending w) (hstore : w'.store = w.store) (hfaults : w'.faults = w.faults)
    (hcurrent : w'.current = none) : InStep pending w' := by
  refine ⟨hfaults.trans h.faults, hstore ▸ h.isOpen, hstore ▸ h.isDone, hstore ▸ h.cached, fun i hi => ?_⟩
  rw [hcurrent] at hi
  cases hi

/-- The index in memory mirrors the bookmarks, and its snapshot is cached. -/
theorem InStep.of_current {i : Nat} (hfaults : w.faults = []) (hopen : w.store.isOpen = true)
    (hdone : ∀ x ∈ pending, x.IsDone w.store.shelf) (hi : w.current = some i) (hlt : i < w.editions.length)
    (hc : CachedIndex w.store.cache (w.edition i).index) (hm : Reflects pending (w.edition i).index w.store.shelf) :
    InStep pending w := by
  refine ⟨hfaults, hopen, hdone, Or.inr (Or.inr ⟨_, hc, hm⟩), fun j hj => ?_⟩
  cases hi.symm.trans hj
  exact ⟨hlt, hc, hm⟩

/-! ## Loading -/

/-- An index that mirrors the bookmarks is published, its snapshot in the cache. -/
theorem InStep.publish (h : InStep pending w) {c : Cache} (hc : CachedIndex c ix)
    (hm : Reflects pending ix w.store.shelf) : InStep pending ((w.withCache c).withIndex ix) := by
  refine InStep.of_current h.faults h.isOpen h.isDone rfl ?_ ?_ ?_
  · simp [State.withIndex, State.publish]
  · rw [edition_withIndex]
    exact hc
  · rw [edition_withIndex]
    exact hm

/-- What can be read from the cache mirrors the bookmarks, and nothing there is in the way. -/
theorem InStep.cachedIndex (h : InStep pending w) : w.cachedIndex = .ok none ∨
    ∃ ix, w.cachedIndex = .ok (some ix) ∧ CachedIndex w.indexLookup.2 ix ∧ Reflects pending ix w.store.shelf := by
  rcases h.cached with hnone | ⟨since, hnull⟩ | ⟨ix₀, ⟨now, since, hix⟩, hm⟩
  · refine .inl ?_
    rw [State.cachedIndex, State.indexLookup, Cache.get_of_none hnone]
    rfl
  · refine .inl ?_
    rw [State.cachedIndex, State.indexLookup, Cache.get_of_value hnull rfl rfl]
    rfl
  · have hlookup : w.indexLookup = (.ok (indexEntry ix₀ now), w.store.cache) := Cache.get_of_value hix rfl rfl
    obtain ⟨ix', hread, hsnapshot, hm'⟩ := hm.ofSnapshot w.host.room
    refine .inr ⟨ix', ?_, ?_, hm'⟩
    · rw [State.cachedIndex, hlookup]
      exact indexIn_indexEntry hread now
    · rw [hlookup]
      exact CachedIndex.of_snapshot_eq ⟨now, since, hix⟩ hsnapshot

/-- What is restored mirrors the bookmarks. -/
theorem InStep.usable (h : InStep pending w) (hs : w.cachedIndex = .ok (some ix)) :
    CachedIndex w.indexLookup.2 ix ∧ Reflects pending ix w.store.shelf := by
  rcases h.cachedIndex with hnone | ⟨ix', hsome, hc, hm⟩
  · cases hnone.symm.trans hs
  · cases hsome.symm.trans hs
    exact ⟨hc, hm⟩

theorem reflects_builtIndex (w : State α) (pending : Option Write) : Reflects pending w.builtIndex w.store.shelf := by
  have h := Index.mirrors_ofBookmarks (Shelf.nodup_all_ids w.store.shelf)
  refine Index.Mirrors.weaken ⟨h.fields, h.consistent, h.covers, fun d hd => ?_⟩ _
  simp only [h.documents d hd, Shelf.mem_all]

/-- **Loading the index keeps index and store in step.** -/
theorem InStep.load (h : InStep pending w) : ∃ i w', loadIndex.run w = (.ok i, w') ∧ w'.current = some i ∧
    w'.store.shelf = w.store.shelf ∧ InStep pending w' := by
  have hl := loading w
  generalize loadIndex.run w = r at hl
  cases hl with
  | memory hi => exact ⟨_, _, rfl, hi, rfl, h⟩
  | restored hn hc hs =>
    obtain ⟨hcached, hm⟩ := h.usable hs
    exact ⟨_, _, rfl, rfl, rfl, h.publish hcached hm⟩
  | built hn hc hs ha hset =>
    have hcached : CachedIndex (w.indexLookup.2.set w.now indexKey (indexEntry w.builtIndex w.now) none) w.builtIndex :=
      ⟨w.now, cached_set _ _ _⟩
    exact ⟨_, _, rfl, rfl, rfl, h.publish hcached (reflects_builtIndex w pending)⟩
  | unread hn hc => exact absurd (h.ready _) hc
  | unusable hn hc hs =>
    rcases h.cachedIndex with hnone | ⟨_, hsome, _⟩
    · cases hnone.symm.trans hs
    · cases hsome.symm.trans hs
  | unbuilt hn hc hs hb => exact absurd ⟨h.ready _, h.ready _⟩ hb

/-! ## Forgetting and rebuilding -/

theorem InStep.forget (h : InStep pending w) : InStep pending (forgetIndex.run w).2 := h.of_forgotten rfl rfl rfl

theorem InStep.fresh (h : InStep pending w) : InStep pending w.fresh := h.of_forgotten rfl rfl rfl

theorem keyMatches_indexKey : Cache.keyMatches similarityPattern indexKey = false := by decide +kernel

theorem run_forgetSimilar (h : w.Ready .clearCache) :
    forgetSimilar.run w = (.ok (), w.withCache (w.store.cache.clear similarityPattern)) := by
  have hl : w.lock.Ready .clearCache := h
  simp only [forgetSimilar, Task.run_bind, Task.run_locked, run_clearCached hl (refuses_similarity _), Task.follow_ok,
    Task.run_pure]
  rfl

/-- Forgetting what is known of similar bookmarks does not touch the snapshot. -/
theorem InStep.forgetSimilar (h : InStep pending w) : ∃ w', forgetSimilar.run w = (.ok (), w') ∧
    w'.store.shelf = w.store.shelf ∧ InStep pending w' := by
  refine ⟨_, run_forgetSimilar (h.ready _), rfl, ?_⟩
  exact h.of_eq rfl (Cache.entry_clear (by decide) keyMatches_indexKey) rfl rfl rfl rfl

theorem run_clearIndex (h : w.Ready .setCache) : clearIndex.run w =
    (.ok (), { w.withCache (w.store.cache.set w.now indexKey .null none) with current := none }) := by
  have hl : ({ w.lock with current := none } : State α).Ready .setCache := h
  simp only [clearIndex, Task.run_locked, forgetIndex, Task.run_bind, Task.run_change, Task.follow_ok]
  rw [run_cacheValue hl rfl]
  rfl

theorem InStep.clear (h : InStep pending w) : InStep pending (clearIndex.run w).2 := by
  rw [run_clearIndex (h.ready _)]
  exact ⟨h.faults, h.isOpen, h.isDone, Or.inr (Or.inl (cached_set _ _ _)), fun i hi => by cases hi⟩

/-- The state in which the index that was built is published. -/
def State.rebuilt (w : State α) : State α :=
  (w.withCache (w.store.cache.set w.now indexKey (indexEntry w.builtIndex w.now) none)).withIndex w.builtIndex

theorem run_rebuildIndex (ha : w.Ready .getAll) (hs : w.Ready .setCache) :
    rebuildIndex.run w = Task.follow (forgetSimilar.run w.rebuilt) fun _ => pure w.builtIndex.size := by
  have hbuild := run_buildIndex (w := w.lock) ha hs
  simp only [rebuildIndex, Task.run_bind, Task.run_locked, hbuild, Task.follow_ok, Task.run_act, Task.run_pure]
  rfl

theorem InStep.rebuild (h : InStep pending w) : ∃ n w', rebuildIndex.run w = (.ok n, w') ∧
    w'.store.shelf = w.store.shelf ∧ InStep pending w' := by
  have hbuilt : InStep pending w.rebuilt := h.publish ⟨w.now, cached_set _ _ _⟩ (reflects_builtIndex w pending)
  obtain ⟨w', hrun, hshelf, hw'⟩ := hbuilt.forgetSimilar
  exact ⟨_, w', by rw [run_rebuildIndex (h.ready _) (h.ready _), hrun]; rfl, hshelf, hw'⟩

/-! ## Searching and waiting -/

theorem InStep.search (h : InStep pending w) (query : String) (active : Option Query.ActiveFilters)
    (options : Option Search.Options) : InStep pending ((search query active options).run w).2 := by
  obtain ⟨i, w', hrun, _, _, hw'⟩ := h.load
  rcases search_state w query active options with hs | hs
  · rwa [hs]
  · rwa [hs, hrun]

theorem InStep.wait (h : InStep pending w) (seconds : Number) : InStep pending ((letPass seconds).run w).2 :=
  letPass_keeps h (fun _ => h.of_eq rfl rfl rfl rfl rfl rfl) seconds

/-! ## Changes of the store -/

/-- A change of one bookmark leaves its document out of account. -/
theorem InStep.await (h : InStep none w) (x : Write) (hdone : x.IsDone s)
    (hs : ∀ c, c.id ≠ x.id → (c ∈ s.bookmarks ↔ c ∈ w.store.shelf.bookmarks)) (records : RecordTable α) :
    InStep (some x) { w with store := { w.store with shelf := s, records } } := by
  refine ⟨h.faults, h.isOpen, fun _ hx => Option.mem_some.mp hx ▸ hdone, ?_, fun i hi => ?_⟩
  · rcases h.cached with hnone | hnull | ⟨ix, hix, hm⟩
    · exact Or.inl hnone
    · exact Or.inr (Or.inl hnull)
    · exact Or.inr (Or.inr ⟨ix, hix, hm.await hs⟩)
  · obtain ⟨hlt, hc, hm⟩ := h.loaded i hi
    exact ⟨hlt, hc, hm.await hs⟩

theorem InStep.keep (h : InStep none w) (b : Bookmark) : ∃ w', (keepOne b).run w = (.ok (), w') ∧
    w'.store.shelf = w.store.shelf.put b ∧ InStep (some (.keep b)) w' := by
  refine ⟨_, run_keepOne (h.ready _) (h.ready _) b, rfl, ?_⟩
  exact h.await (.keep b) (Shelf.mem_put_self _ b) (fun _ hc => Shelf.mem_put_of_ne hc) _

theorem run_deleteBookmark (h : w.Ready .delete) (id : String) : (deleteBookmark id).run w =
    (.ok (w.store.shelf.contains id), { w with store := w.store.delete id }) := run_store h _

theorem InStep.delete (h : InStep none w) (id : String) : ∃ deleted w', (deleteBookmark id).run w = (.ok deleted, w') ∧
    w'.store.shelf = w.store.shelf.remove id ∧ InStep (some (.delete id)) w' := by
  refine ⟨_, _, run_deleteBookmark (h.ready _) id, rfl, ?_⟩
  refine h.await (.delete id) (fun c hc => ?_) (fun c hc => ?_) _
  · exact (Shelf.mem_remove.mp hc).2
  · exact Shelf.mem_remove.trans (and_iff_left hc)

/-! ## Changes of the index -/

theorem edition_setEdition {i : Nat} (h : i < w.editions.length) (ix : Index) :
    ((w.setEdition i ix).edition i).index = ix := by
  simp [State.setEdition, State.edition, h]

/-- The state in which the current index was changed and its snapshot cached. -/
def State.saved (w : State α) (i : Nat) (ix : Index) : State α :=
  (w.setEdition i ix).withCache (w.store.cache.set w.now indexKey (indexEntry ix w.now) none)

/-- **A change that makes the index mirror the bookmarks, and is saved, brings index and store in step.** -/
theorem InStep.save (h : InStep pending w) {i : Nat} (hi : w.current = some i) (hm : Reflects none ix w.store.shelf) :
    InStep none (w.saved i ix) := by
  obtain ⟨hlt, _, _⟩ := h.loaded i hi
  have hedition : ((w.saved i ix).edition i).index = ix := edition_setEdition hlt ix
  refine InStep.of_current h.faults h.isOpen (by simp) hi ?_ ?_ ?_
  · simpa [State.saved, State.setEdition, State.withCache, State.putCache, State.unlock] using hlt
  · rw [hedition]
    exact ⟨w.now, cached_set _ _ _⟩
  · rw [hedition]
    exact hm

/-- The state in which the current index was changed, its snapshot cached if asked to. -/
def State.changed (w : State α) (i : Nat) (ix : Index) : Bool → State α
  | true => w.saved i ix
  | false => (w.setEdition i ix).unlock

theorem run_changeIndex {f : Index → Index × Except Fault Unit} {i : Nat} (hload : loadIndex.run w = (.ok i, w'))
    (hlt : i < w'.editions.length) (hok : (f (w'.edition i).index).2 = .ok ()) (hs : w'.Ready .setCache) (save : Bool) :
    (changeIndex f save).run w = forgetSimilar.run (w'.changed i (f (w'.edition i).index).1 save) := by
  have hedition := edition_setEdition (w := w'.lock) hlt (f (w'.edition i).index).1
  have hsave := run_saveIndex (w := w'.lock.setEdition i (f (w'.edition i).index).1) hs (f (w'.edition i).index).1
  cases save with
  | true =>
    simp only [changeIndex, Task.run_bind, hload, Task.follow_ok, Task.run_locked, changeEdition, Task.run_act,
      State.lock_edition, hok, Task.run_ofExcept, if_true, saveEdition, Task.run_look, hedition, hsave]
    rfl
  | false =>
    simp only [changeIndex, Task.run_bind, hload, Task.follow_ok, Task.run_locked, changeEdition, Task.run_act,
      State.lock_edition, hok, Task.run_ofExcept, Bool.false_eq_true, if_false, Task.run_pure]
    rfl

/-- A bookmark that is kept is put into the index. -/
theorem InStep.update (h : InStep (some (.keep b)) w) : ∃ w', (updateBookmark b true).run w = (.ok (), w') ∧
    w'.store.shelf = w.store.shelf ∧ InStep none w' := by
  obtain ⟨i, w', hrun, hi, hshelf, hw'⟩ := h.load
  obtain ⟨hlt, _, hm⟩ := hw'.loaded i hi
  have hb : b ∈ w'.store.shelf.bookmarks := hw'.isDone _ rfl
  have hok : ((w'.edition i).index.update b).2 = .ok () := by
    simp [Index.update, Index.insertBookmark, Index.of_indexedFields hm.fields b]
  obtain ⟨w'', hforget, hshelf', hw''⟩ := (hw'.save hi (hm.update hb w'.store.shelf.distinct)).forgetSimilar
  exact ⟨w'', (run_changeIndex hrun hlt hok (hw'.ready _) true).trans hforget, hshelf'.trans hshelf, hw''⟩

theorem addBookmark_eq_updateBookmark (b : Bookmark) (save : Bool) :
    addBookmark (α := α) b save = updateBookmark b save := by
  simp only [addBookmark, updateBookmark, Index.add_eq_update]

theorem InStep.add (h : InStep (some (.keep b)) w) : ∃ w', (addBookmark b true).run w = (.ok (), w') ∧
    w'.store.shelf = w.store.shelf ∧ InStep none w' := by
  rw [addBookmark_eq_updateBookmark]
  exact h.update

/-! ## Removals -/

theorem run_removeBookmark {i : Nat} (hload : loadIndex.run w = (.ok i, w')) (hlt : i < w'.editions.length)
    (hid : (w'.edition i).index.contains id = true) (hs : w'.Ready .setCache) (save : Bool) :
    (removeBookmark id save).run w =
      Task.follow (forgetSimilar.run (w'.changed i ((w'.edition i).index.remove id) save)) fun _ => pure true := by
  have hedition := edition_setEdition (w := w'.lock) hlt ((w'.edition i).index.remove id)
  have hsave := run_saveIndex (w := w'.lock.setEdition i ((w'.edition i).index.remove id)) hs
    ((w'.edition i).index.remove id)
  cases save with
  | true =>
    simp only [removeBookmark, Task.run_bind, hload, Task.follow_ok, Task.run_locked, Task.run_look, State.lock_edition,
      hid, changeEdition, Task.run_act, Task.run_ofExcept, Bool.and_self, if_true, saveEdition, hedition, hsave,
      Task.run_pure]
    rfl
  | false =>
    simp only [removeBookmark, Task.run_bind, hload, Task.follow_ok, Task.run_locked, Task.run_look, State.lock_edition,
      hid, changeEdition, Task.run_act, Task.run_ofExcept, Bool.and_false, Bool.false_eq_true, if_false, if_true,
      Task.run_pure]
    rfl

theorem run_removeBookmark_unknown {i : Nat} (hload : loadIndex.run w = (.ok i, w'))
    (hid : (w'.edition i).index.contains id = false) (save : Bool) :
    (removeBookmark id save).run w = (.ok false, (w'.setEdition i ((w'.edition i).index.remove id)).unlock) := by
  simp only [removeBookmark, Task.run_bind, hload, Task.follow_ok, Task.run_locked, Task.run_look, State.lock_edition,
    hid, changeEdition, Task.run_act, Task.run_ofExcept, Bool.false_and, Bool.false_eq_true, if_false, Task.run_pure]
  rfl

/-- The document of a bookmark that was deleted is removed; where the index does not have it, nothing need be saved. -/
theorem InStep.remove (h : InStep (some (.delete id)) w) :
    ∃ removed w', (removeBookmark id true).run w = (.ok removed, w') ∧
    w'.store.shelf = w.store.shelf ∧ InStep none w' := by
  obtain ⟨i, w', hrun, hi, hshelf, hw'⟩ := h.load
  obtain ⟨hlt, hc, hm⟩ := hw'.loaded i hi
  have hid : ∀ c ∈ w'.store.shelf.bookmarks, c.id ≠ id := hw'.isDone _ rfl
  have hm' : Reflects none ((w'.edition i).index.remove id) w'.store.shelf := hm.remove hid
  cases hcontains : (w'.edition i).index.contains id with
  | true =>
    obtain ⟨w'', hforget, hshelf', hw''⟩ := (hw'.save hi hm').forgetSimilar
    refine ⟨true, w'', ?_, hshelf'.trans hshelf, hw''⟩
    rw [run_removeBookmark hrun hlt hcontains (hw'.ready _) true]
    show Task.follow (Engine.forgetSimilar.run (w'.saved i _)) _ = _
    rw [hforget]
    rfl
  | false =>
    have hsame : (w'.edition i).index.remove id = (w'.edition i).index :=
      Index.remove_of_not_mem fun hmem => by simp [Index.contains_iff.mpr hmem] at hcontains
    refine ⟨false, _, run_removeBookmark_unknown hrun hcontains true, hshelf, ?_⟩
    have hedition := edition_setEdition hlt ((w'.edition i).index.remove id)
    refine InStep.of_current hw'.faults hw'.isOpen (by simp) hi ?_ ?_ ?_
    · simpa [State.setEdition, State.unlock] using hlt
    · show CachedIndex w'.store.cache ((w'.setEdition i _).edition i).index
      rwa [hedition, hsame]
    · show Reflects none ((w'.setEdition i _).edition i).index w'.store.shelf
      rwa [hedition]

end Shelfmark.Engine
