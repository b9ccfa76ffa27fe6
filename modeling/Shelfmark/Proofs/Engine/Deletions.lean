import Shelfmark.Proofs.Engine.Usable

/-!
# Deleted bookmarks

What the engine knows of a bookmark that was deleted in the store, when it is asked to remove it:

- an index that is in step with the store has the bookmark, if it was in memory or in the cached snapshot before the
  deletion (`InStep.finds_deleted`);
- if neither was there, the index is built without it, and the removal does not forget the cached pairs
  (`Usable.misses_deleted`).
-/

namespace Shelfmark.Engine

variable {α : Type} {w : State α} {ix : Index} {s : Shelf} {id : String}

/-- The state in which a bookmark was deleted. -/
def State.without (w : State α) (id : String) : State α := { w with store := w.store.delete id }

theorem Usable.without (h : Usable w) (id : String) : Usable (w.without id) :=
  h.of_shelf (w.store.shelf.remove id) (w.store.records.forget id)

theorem Usable.run_deleteBookmark (h : Usable w) (id : String) :
    (deleteBookmark id).run w = (.ok (w.store.shelf.contains id), w.without id) :=
  Engine.run_deleteBookmark (h.ready _) id

/-! ## Known bookmarks -/

theorem Reflects.contains (h : Reflects none ix s) (hid : s.contains id = true) : ix.contains id = true := by
  obtain ⟨b, hb⟩ := Option.isSome_iff_exists.mp hid
  obtain ⟨hmem, hbid⟩ := Shelf.get?_eq_some_iff.mp hb
  refine Index.contains_iff.mpr (List.mem_map.mpr ⟨Document.docOf Bookmark.indexedFields b, ?_, hbid⟩)
  exact (Index.Mirrors.documents h _ (by simp)).mpr ⟨b, hmem, rfl⟩

/-- An index that is published is the one with its number. -/
theorem edition_published (w : State α) (c : Cache) (ix : Index) :
    (((w.withCache c).withIndex ix).edition w.editions.length).index = ix :=
  congrArg Edition.index (edition_withIndex (w.withCache c) ix)

/-- A snapshot that mirrors the bookmarks can be used. -/
theorem InStep.usable_of_cached {pending : Option Write} (h : InStep pending w) (hix : CachedIndex w.store.cache ix) :
    ∃ ix', w.cachedIndex = .ok (some ix') := by
  obtain ⟨now, since, hentry⟩ := hix
  rcases h.cached with hnone | ⟨_, hnull⟩ | ⟨ix₀, ⟨now₀, since₀, hix₀⟩, hm⟩
  · exact absurd (hnone.symm.trans hentry) (by simp)
  · exact absurd (hnull.symm.trans hentry) (by simp [indexEntry])
  · obtain ⟨ix', hread, _⟩ := hm.ofSnapshot w.host.room
    refine ⟨ix', ?_⟩
    rw [State.cachedIndex, State.indexLookup, Cache.get_of_value hix₀ rfl rfl]
    exact indexIn_indexEntry hread now₀

/-- **A bookmark that was deleted is found in an index in step with the store, if its snapshot was cached.** -/
theorem InStep.finds_deleted (h : InStep none w) (hix : CachedIndex w.store.cache ix)
    (hid : w.store.shelf.contains id = true) (save : Bool) :
    ((removeBookmark id save).run ((deleteBookmark id).run w).2).1 = .ok true := by
  obtain ⟨ix₀, husable⟩ := h.usable_of_cached hix
  have hdeleted := (Usable.of_inStep h).without id
  -- the index that is loaded has the documents of the bookmarks before the deletion
  have hl := loading (w.without id)
  obtain ⟨i, w', hrun, hi, _, _, hw'⟩ := hdeleted.load
  have hknown : (w'.edition i).index.contains id = true := by
    rw [hrun] at hl
    cases hl with
    | memory hi => exact (h.loaded _ hi).2.2.contains hid
    | restored _ _ hs =>
      rw [edition_published]
      exact (h.usable hs).2.contains hid
    | built _ _ hs => cases hs.symm.trans husable
  obtain ⟨hlt, hf⟩ := hw'.loaded i hi
  obtain ⟨w'', hforget, _⟩ := (hw'.changed hi (Index.fields_remove.trans hf) save).forgetSimilar
  rw [(Usable.of_inStep h).run_deleteBookmark, run_removeBookmark hrun hlt hknown (hw'.ready _) save, hforget]
  rfl

/-! ## Unknown bookmarks -/

/-- An index that is built after a bookmark was deleted does not have it. -/
theorem not_contains_builtIndex (w : State α) (id : String) : (w.without id).builtIndex.contains id = false := by
  rw [Bool.eq_false_iff, ne_eq, Index.contains_iff]
  intro hmem
  obtain ⟨d, hd, hid⟩ := List.mem_map.mp hmem
  obtain ⟨c, hc, rfl⟩ := (Index.Mirrors.documents (reflects_builtIndex (w.without id) none) d (by simp)).mp hd
  exact (Shelf.mem_remove.mp hc).2 hid

/-- **A bookmark that was deleted is not found if no index was in memory and no snapshot cached; the cached pairs
stay.** -/
theorem Usable.misses_deleted (h : Usable w) (hcurrent : w.current = none)
    (hnone : w.store.cache.entry? indexKey = none) (id : String) (save : Bool) :
    ∃ w', (removeBookmark id save).run ((deleteBookmark id).run w).2 = (.ok false, w') ∧
      w'.store.shelf = w.store.shelf.remove id ∧ w'.now = w.now ∧ Usable w' ∧
      ∀ key, indexKey ≠ key → w'.store.cache.entry? key = w.store.cache.entry? key := by
  have hdeleted := h.without id
  have hlookup : (w.without id).indexLookup = (.ok .null, w.store.cache) := Cache.get_of_none hnone
  have hl := loading (w.without id)
  obtain ⟨i, w', hrun, hi, _, _, hw'⟩ := hdeleted.load
  rw [hrun] at hl
  rw [h.run_deleteBookmark]
  cases hl with
  | memory hi => exact absurd (hcurrent.symm.trans hi) (by simp)
  | restored _ _ hs =>
    rw [State.cachedIndex, hlookup] at hs
    cases hs
  | built =>
    obtain ⟨_, hf⟩ := hw'.loaded _ hi
    refine ⟨_, run_removeBookmark_unknown hrun ?_ save, rfl, rfl,
      hw'.changed hi (Index.fields_remove.trans hf) false, fun key hk => ?_⟩
    · rw [edition_published]
      exact not_contains_builtIndex w id
    · refine (Cache.entry_set_of_ne hk).trans ?_
      rw [hlookup]

end Shelfmark.Engine
