import Shelfmark.Proofs.Engine.Misses
import Shelfmark.Proofs.Engine.Pairs
import Shelfmark.Proofs.Engine.Upkeep

/-!
# An index that can be used

An engine is usable (`Usable`) if the store is in order and every index that is loaded or cached has the fields that
bookmarks have, whatever documents it holds.  Then the index can be loaded, made anew and changed, and the engine stays
usable:

- loading the index caches no pairs (`Usable.load`);
- when the index is made anew or a bookmark is put into it, the cached pairs are forgotten (`Usable.rebuild`,
  `Usable.change`);
- when a bookmark is removed from it, they are forgotten if the index had the bookmark (`Usable.remove`).
-/

namespace Shelfmark.Engine

variable {α : Type} {w w' : State α} {ix : Index} {b : Bookmark} {id : String}

/-- The cached snapshot, if there is one, is that of an index with the fields of bookmarks. -/
def UsableSnapshot (c : Cache) : Prop :=
  c.entry? indexKey = none ∨ Cached c .null ∨ ∃ ix, CachedIndex c ix ∧ ix.fields = Bookmark.indexedFields

/-- The store is in order, and the indexes that are loaded or cached have the fields of bookmarks. -/
structure Usable (w : State α) : Prop where
  faults : w.faults = []
  isOpen : w.store.isOpen = true
  cached : UsableSnapshot w.store.cache
  loaded : ∀ i, w.current = some i → i < w.editions.length ∧ (w.edition i).index.fields = Bookmark.indexedFields

theorem Usable.of_inStep {pending : Option Write} (h : InStep pending w) : Usable w := by
  refine ⟨h.faults, h.isOpen, ?_, fun i hi => ?_⟩
  · rcases h.cached with hnone | hnull | ⟨ix, hc, hm⟩
    · exact Or.inl hnone
    · exact Or.inr (Or.inl hnull)
    · exact Or.inr (Or.inr ⟨ix, hc, hm.fields⟩)
  · obtain ⟨hlt, _, hm⟩ := h.loaded i hi
    exact ⟨hlt, hm.fields⟩

theorem Usable.ready (h : Usable w) (op : StoreOperation) : w.Ready op := by
  simp [State.Ready, State.faultOf, h.faults, h.isOpen]

theorem Usable.of_sameIndex (h : Usable w) (hs : SameIndex w w') : Usable w' := by
  refine ⟨hs.faults.trans h.faults, hs.isOpen.trans h.isOpen, ?_, fun i hi => ?_⟩
  · simpa only [UsableSnapshot, Cached, CachedIndex, hs.entry] using h.cached
  · simpa only [State.edition, hs.editions] using h.loaded i (hs.current ▸ hi)

/-- The bookmarks and the records do not matter. -/
theorem Usable.of_shelf (h : Usable w) (s : Shelf) (records : RecordTable α) :
    Usable { w with store := { w.store with shelf := s, records } } :=
  ⟨h.faults, h.isOpen, h.cached, h.loaded⟩

/-- The index in memory may be forgotten. -/
theorem Usable.of_forgotten (h : Usable w) (hstore : w'.store = w.store) (hfaults : w'.faults = w.faults)
    (hcurrent : w'.current = none) : Usable w' := by
  refine ⟨hfaults.trans h.faults, hstore ▸ h.isOpen, hstore ▸ h.cached, fun i hi => ?_⟩
  rw [hcurrent] at hi
  cases hi

theorem usableSnapshot_set (c : Cache) (now now' : Timestamp) (hf : ix.fields = Bookmark.indexedFields) :
    UsableSnapshot (c.set now indexKey (indexEntry ix now') none) :=
  Or.inr (Or.inr ⟨ix, ⟨now', cached_set _ _ _⟩, hf⟩)

/-! ## Loading -/

/-- An index that has the fields of bookmarks is published. -/
theorem Usable.publish (h : Usable w) {c : Cache} (hc : UsableSnapshot c) (hf : ix.fields = Bookmark.indexedFields) :
    Usable ((w.withCache c).withIndex ix) := by
  refine ⟨h.faults, h.isOpen, hc, fun i hi => ?_⟩
  obtain rfl : w.editions.length = i := Option.some.inj hi
  have hedition : ((w.withCache c).withIndex ix).edition w.editions.length = ⟨ix, false⟩ := edition_withIndex _ ix
  rw [hedition]
  exact ⟨by simp [State.withIndex, State.publish, State.withCache, State.putCache, State.unlock], hf⟩

theorem fields_builtIndex (w : State α) : w.builtIndex.fields = Bookmark.indexedFields :=
  (reflects_builtIndex w none).fields

/-- Reading the snapshot leaves the cache as it is and succeeds, and an index that is read from it has the fields of
bookmarks. -/
theorem Usable.lookup (h : Usable w) : w.indexLookup.2 = w.store.cache ∧
    ∃ found, w.cachedIndex = .ok found ∧ ∀ ix ∈ found, ix.fields = Bookmark.indexedFields := by
  rcases h.cached with hnone | ⟨since, hnull⟩ | ⟨ix₀, ⟨now, since, hix⟩, hf⟩
  · rw [State.cachedIndex, State.indexLookup, Cache.get_of_none hnone]
    exact ⟨rfl, none, rfl, fun _ hread => absurd hread (Option.not_mem_none _)⟩
  · rw [State.cachedIndex, State.indexLookup, Cache.get_of_value hnull rfl rfl]
    exact ⟨rfl, none, rfl, fun _ hread => absurd hread (Option.not_mem_none _)⟩
  · rw [State.cachedIndex, State.indexLookup, Cache.get_of_value hix rfl rfl]
    have hroom := (checkEntry_eq_ok_iff.mp (checkEntry_indexEntry w.host ix₀ now)).1
    obtain ⟨found, hfound⟩ := exists_indexIn hroom
    refine ⟨rfl, found, hfound, fun ix hread => ?_⟩
    obtain rfl := Option.mem_def.mp hread
    exact (Index.fields_ofSnapshot_snapshot (ofSnapshot_of_indexIn hfound)).trans hf

/-- **The index can be loaded, and no pairs are cached on the way.** -/
theorem Usable.load (h : Usable w) : ∃ i w', loadIndex.run w = (.ok i, w') ∧ w'.current = some i ∧
    w'.store.shelf = w.store.shelf ∧ PairsWithin w.store.cache w'.store.cache ∧ Usable w' := by
  obtain ⟨hcache, found, hfound, hread⟩ := h.lookup
  have hl := loading w
  generalize loadIndex.run w = r at hl
  cases hl with
  | memory hi => exact ⟨_, _, rfl, hi, rfl, .refl _, h⟩
  | restored hn hc hs =>
    obtain rfl := Except.ok.inj (hfound.symm.trans hs)
    refine ⟨_, _, rfl, rfl, rfl, ?_, h.publish (hcache ▸ h.cached) (hread _ rfl)⟩
    rw [hcache]
    exact .refl _
  | built hn hc hs ha hset =>
    refine ⟨_, _, rfl, rfl, rfl, ?_, h.publish (usableSnapshot_set _ _ _ (fields_builtIndex w)) (fields_builtIndex w)⟩
    rw [hcache]
    exact pairsWithin_set keyMatches_indexKey _ _ _ _
  | unread hn hc => exact absurd (h.ready _) hc
  | unusable hn hc hs => cases hfound.symm.trans hs
  | unbuilt hn hc hs hb => exact absurd ⟨h.ready _, h.ready _⟩ hb

/-! ## Forgetting and rebuilding -/

theorem Usable.forget (h : Usable w) : Usable (forgetIndex.run w).2 := h.of_forgotten rfl rfl rfl

theorem Usable.fresh (h : Usable w) : Usable w.fresh := h.of_forgotten rfl rfl rfl

theorem Usable.clear (h : Usable w) : Usable (clearIndex.run w).2 := by
  rw [run_clearIndex (h.ready _)]
  exact ⟨h.faults, h.isOpen, Or.inr (Or.inl (cached_set _ _ _)), fun i hi => by cases hi⟩

/-- After the cached pairs were forgotten there are none. -/
theorem Usable.forgetSimilar (h : Usable w) : ∃ w', forgetSimilar.run w = (.ok (), w') ∧
    w'.store.shelf = w.store.shelf ∧ NoPairs w'.store.cache ∧ Usable w' := by
  refine ⟨_, run_forgetSimilar (h.ready _), rfl, noPairs_clear _, ?_⟩
  exact h.of_sameIndex ⟨rfl, rfl, rfl, rfl, Cache.entry_clear (by decide) keyMatches_indexKey, rfl, rfl⟩

theorem Usable.rebuild (h : Usable w) : ∃ n w', rebuildIndex.run w = (.ok n, w') ∧
    w'.store.shelf = w.store.shelf ∧ NoPairs w'.store.cache ∧ Usable w' := by
  have hbuilt : Usable w.rebuilt := h.publish (usableSnapshot_set _ _ _ (fields_builtIndex w)) (fields_builtIndex w)
  obtain ⟨w', hrun, hshelf, hnone, hw'⟩ := hbuilt.forgetSimilar
  exact ⟨_, w', by rw [run_rebuildIndex (h.ready _) (h.ready _), hrun]; rfl, hshelf, hnone, hw'⟩

/-! ## Changing -/

/-- A changed index has the fields of bookmarks, and so has its snapshot if it is cached. -/
theorem Usable.changed (h : Usable w) {i : Nat} (hi : w.current = some i) (hf : ix.fields = Bookmark.indexedFields)
    (save : Bool) : Usable (w.changed i ix save) := by
  obtain ⟨hlt, _⟩ := h.loaded i hi
  have hedition : ((w.setEdition i ix).edition i).index = ix := edition_setEdition hlt ix
  have hlt' : i < (w.setEdition i ix).editions.length := by simpa [State.setEdition] using hlt
  have hloaded : ∀ j, w.current = some j → j < (w.setEdition i ix).editions.length ∧
      ((w.setEdition i ix).edition j).index.fields = Bookmark.indexedFields := by
    intro j hj
    cases hi.symm.trans hj
    exact ⟨hlt', by rw [hedition, hf]⟩
  cases save with
  | true => exact ⟨h.faults, h.isOpen, usableSnapshot_set _ _ _ hf, hloaded⟩
  | false => exact ⟨h.faults, h.isOpen, h.cached, hloaded⟩

/-- **A bookmark can be put into the index, and no cached pairs are left.** -/
theorem Usable.update (h : Usable w) (b : Bookmark) (save : Bool) : ∃ w', (updateBookmark b save).run w = (.ok (), w') ∧
    w'.store.shelf = w.store.shelf ∧ NoPairs w'.store.cache ∧ Usable w' := by
  obtain ⟨i, w', hrun, hi, hshelf, _, hw'⟩ := h.load
  obtain ⟨hlt, hf⟩ := hw'.loaded i hi
  have hok : ((w'.edition i).index.update b).2 = .ok () := by
    simp [Index.update, Index.insertBookmark, Index.of_indexedFields hf b]
  have hf' : ((w'.edition i).index.update b).1.fields = Bookmark.indexedFields := Index.fields_update.trans hf
  obtain ⟨w'', hforget, hshelf', hnone, hw''⟩ := (hw'.changed hi hf' save).forgetSimilar
  refine ⟨w'', (run_changeIndex hrun hlt hok (hw'.ready _) save).trans hforget, ?_, hnone, hw''⟩
  rw [hshelf', ← hshelf]
  cases save <;> rfl

theorem Usable.add (h : Usable w) (b : Bookmark) (save : Bool) : ∃ w', (addBookmark b save).run w = (.ok (), w') ∧
    w'.store.shelf = w.store.shelf ∧ NoPairs w'.store.cache ∧ Usable w' := by
  rw [addBookmark_eq_updateBookmark]
  exact h.update b save

/-- **A bookmark can be removed from the index, and no cached pairs are left if the index had it.** -/
theorem Usable.remove (h : Usable w) (id : String) (save : Bool) : ∃ removed w',
    (removeBookmark id save).run w = (.ok removed, w') ∧ w'.store.shelf = w.store.shelf ∧
      PairsWithin w.store.cache w'.store.cache ∧ (removed = true → NoPairs w'.store.cache) ∧ Usable w' := by
  obtain ⟨i, w', hrun, hi, hshelf, hwithin, hw'⟩ := h.load
  obtain ⟨hlt, hf⟩ := hw'.loaded i hi
  have hf' : ((w'.edition i).index.remove id).fields = Bookmark.indexedFields := Index.fields_remove.trans hf
  cases hcontains : (w'.edition i).index.contains id with
  | true =>
    obtain ⟨w'', hforget, hshelf', hnone, hw''⟩ := (hw'.changed hi hf' save).forgetSimilar
    refine ⟨true, w'', ?_, ?_, fun e he hk => ?_, fun _ => hnone, hw''⟩
    · rw [run_removeBookmark hrun hlt hcontains (hw'.ready _) save, hforget]
      rfl
    · rw [hshelf', ← hshelf]
      cases save <;> rfl
    · rw [hnone e he] at hk
      cases hk
  | false =>
    refine ⟨false, _, run_removeBookmark_unknown hrun hcontains save, hshelf, hwithin, by simp, ?_⟩
    exact hw'.changed hi hf' false

end Shelfmark.Engine
