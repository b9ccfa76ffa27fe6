import Shelfmark.Proofs.Engine.InStep

/-!
# Changes of the index and their snapshots

A change of the index ends in one of three ways (`Outcome`), whatever operations of the store are out of order: index
and snapshot are both changed, or neither is, or only the index is.

- Making the index anew never changes the index alone: its snapshot is cached first (`outcome_rebuild`);
- a bookmark is put into the index or removed from it before the snapshot is cached, so that the index alone is changed
  if the snapshot cannot be cached (`outcome_update`, `outcome_remove`).
-/

namespace Shelfmark.Engine

variable {α : Type} {w w' : State α} {ix : Index} {b : Bookmark} {id : String} {i : Nat} {save : Bool}

/-! ## Changes -/

/-- A change of the index. -/
inductive IndexChange
  | rebuild
  | add (b : Bookmark)
  | update (b : Bookmark)
  | remove (id : String)

namespace IndexChange

/-- The operation that makes the change, without its answer. -/
def task (c : IndexChange) (save : Bool) : Task α Unit :=
  match c with
  | rebuild => rebuildIndex >>= fun _ => pure ()
  | add b => addBookmark b save
  | update b => updateBookmark b save
  | remove id => removeBookmark id save >>= fun _ => pure ()

/-- The index that the change aims at. -/
def target (c : IndexChange) (w : State α) (ix : Index) : Index :=
  match c with
  | rebuild => w.builtIndex
  | add b => (ix.add b).1
  | update b => (ix.update b).1
  | remove id => ix.remove id

/-- The change is one of the index in memory. -/
def Touches (c : IndexChange) (ix : Index) : Prop :=
  match c with
  | rebuild => False
  | add _ | update _ => True
  | remove id => ix.contains id = true

end IndexChange

variable {c : IndexChange}

/-! ## Outcomes -/

/-- The states have the same index in memory and the same snapshot. -/
structure Elsewhere (w w' : State α) : Prop where
  current : w'.current = w.current
  length : w'.editions.length = w.editions.length
  index : ∀ i, (w'.edition i).index = (w.edition i).index
  entry : w'.store.cache.entry? indexKey = w.store.cache.entry? indexKey

theorem Elsewhere.refl (w : State α) : Elsewhere w w := ⟨rfl, rfl, fun _ => rfl, rfl⟩

/-- How a change ends where the index with a number is in memory: the answer and the state afterwards. -/
inductive Outcome (c : IndexChange) (save : Bool) (w : State α) (i : Nat) : Except Fault Unit × State α → Prop
  /-- Index and snapshot are as they were. -/
  | neither {r : Except Fault Unit} {w' : State α} (ht : ¬c.Touches (w.edition i).index) (h : Elsewhere w w') :
      Outcome c save w i (r, w')
  /-- Index and snapshot were changed. -/
  | both {r : Except Fault Unit} {w' : State α} {j : Nat} (hs : c = .rebuild ∨ save = true ∧ w.Ready .setCache)
      (hj : w'.current = some j) (hlt : j < w'.editions.length)
      (hix : (w'.edition j).index = c.target w (w.edition i).index)
      (hc : CachedIndex w'.store.cache (c.target w (w.edition i).index)) : Outcome c save w i (r, w')
  /-- The index was changed; its snapshot was not asked for or could not be cached. -/
  | torn {r : Except Fault Unit} {w' : State α} (ht : c.Touches (w.edition i).index)
      (hs : save = true → ¬w.Ready .setCache ∧ ∃ e, r = .error e) (hi : w'.current = some i)
      (hlt : i < w'.editions.length) (hix : (w'.edition i).index = c.target w (w.edition i).index)
      (hc : w'.store.cache.entry? indexKey = w.store.cache.entry? indexKey) : Outcome c save w i (r, w')

theorem Outcome.current {r : Except Fault Unit × State α} (h : Outcome c save w i r) (hi : w.current = some i) :
    ∃ j, r.2.current = some j := by
  cases h with
  | neither _ he => exact ⟨i, he.current.trans hi⟩
  | both _ hj => exact ⟨_, hj⟩
  | torn _ _ hi => exact ⟨i, hi⟩

theorem forgetSimilar_elsewhere (w : State α) : ∃ r w', forgetSimilar.run w = (r, w') ∧ Elsewhere w w' := by
  by_cases h : w.Ready .clearCache
  · refine ⟨_, _, run_forgetSimilar h, rfl, rfl, fun _ => rfl, ?_⟩
    exact Cache.entry_clear (by decide) keyMatches_indexKey
  · obtain ⟨e, _, hrun⟩ := run_store_not_ready (w := w.lock) h
    refine ⟨.error e, w.lock.unlock, ?_, rfl, rfl, fun _ => rfl, rfl⟩
    simp only [forgetSimilar, Task.run_bind, Task.run_locked, clearCached, hrun, Task.follow_error]

section Loaded

variable (hi : w.current = some i) (hlt : i < w.editions.length)
include hi hlt

/-- The index was changed and saved, and then what is known of similar bookmarks was forgotten, or was not. -/
theorem Outcome.of_saved (hs : w.Ready .setCache) (h : Elsewhere (w.saved i (c.target w (w.edition i).index)) w')
    (r : Except Fault Unit) : Outcome c true w i (r, w') := by
  have hix := edition_setEdition hlt (c.target w (w.edition i).index)
  have hlt' : i < (w.saved i (c.target w (w.edition i).index)).editions.length := by
    simpa [State.saved, State.setEdition, State.withCache, State.putCache, State.unlock] using hlt
  refine .both (.inr ⟨rfl, hs⟩) (h.current.trans hi) (h.length ▸ hlt') ((h.index i).trans hix) ⟨w.now, ?_⟩
  obtain ⟨since, hentry⟩ := cached_set w.store.cache w.now (indexEntry (c.target w (w.edition i).index) w.now)
  exact ⟨since, h.entry.trans hentry⟩

/-- The index was changed, and its snapshot was not. -/
theorem Outcome.of_unsaved (ht : c.Touches (w.edition i).index) {r : Except Fault Unit}
    (hs : save = true → ¬w.Ready .setCache ∧ ∃ e, r = .error e)
    (h : Elsewhere ((w.setEdition i (c.target w (w.edition i).index)).unlock) w') : Outcome c save w i (r, w') := by
  have hix := edition_setEdition hlt (c.target w (w.edition i).index)
  have hlt' : i < (w.setEdition i (c.target w (w.edition i).index)).editions.length := by
    simpa [State.setEdition] using hlt
  exact .torn ht hs (h.current.trans hi) (h.length ▸ hlt') ((h.index i).trans hix) h.entry

end Loaded

/-! ## How changes end -/

theorem run_saveIndex_not_ready (h : ¬w.Ready .setCache) (ix : Index) : ∃ e, (saveIndex ix).run w = (.error e, w) := by
  obtain ⟨e, _, hrun⟩ := run_store_not_ready h
  exact ⟨e, by simp only [saveIndex, Task.run_bind, Task.run_look, Task.follow_ok, cacheValue, hrun]⟩

/-- A change that is not saved, or whose snapshot cannot be cached. -/
theorem run_changeIndex_unsaved {f : Index → Index × Except Fault Unit} (hload : loadIndex.run w = (.ok i, w'))
    (hlt : i < w'.editions.length) (hok : (f (w'.edition i).index).2 = .ok ())
    (hs : save = true → ¬w'.Ready .setCache) : ∃ r v, (changeIndex f save).run w = (r, v) ∧
      (save = true → ∃ e, r = .error e) ∧ Elsewhere ((w'.setEdition i (f (w'.edition i).index).1).unlock) v := by
  cases save with
  | true =>
    have hedition := edition_setEdition (w := w'.lock) hlt (f (w'.edition i).index).1
    obtain ⟨e, hsave⟩ := run_saveIndex_not_ready (w := w'.lock.setEdition i (f (w'.edition i).index).1) (hs rfl)
      (f (w'.edition i).index).1
    refine ⟨.error e, (w'.setEdition i (f (w'.edition i).index).1).unlock, ?_, fun _ => ⟨e, rfl⟩, .refl _⟩
    simp only [changeIndex, Task.run_bind, hload, Task.follow_ok, Task.run_locked, changeEdition, Task.run_act,
      State.lock_edition, hok, Task.run_ofExcept, if_true, saveEdition, Task.run_look, hedition, hsave,
      Task.follow_error]
    rfl
  | false =>
    obtain ⟨r, v, hforget, hv⟩ := forgetSimilar_elsewhere ((w'.setEdition i (f (w'.edition i).index).1).unlock)
    refine ⟨r, v, ?_, by simp, hv⟩
    rw [← hforget]
    simp only [changeIndex, Task.run_bind, hload, Task.follow_ok, Task.run_locked, changeEdition, Task.run_act,
      State.lock_edition, hok, Task.run_ofExcept, Bool.false_eq_true, if_false, Task.run_pure]
    rfl

/-- The removal of a document that is not saved, or whose snapshot cannot be cached. -/
theorem run_removeBookmark_unsaved (hload : loadIndex.run w = (.ok i, w')) (hlt : i < w'.editions.length)
    (hid : (w'.edition i).index.contains id = true) (hs : save = true → ¬w'.Ready .setCache) :
    ∃ r v, (removeBookmark id save).run w = (r, v) ∧ (save = true → ∃ e, r = .error e) ∧
      Elsewhere ((w'.setEdition i ((w'.edition i).index.remove id)).unlock) v := by
  cases save with
  | true =>
    have hedition := edition_setEdition (w := w'.lock) hlt ((w'.edition i).index.remove id)
    obtain ⟨e, hsave⟩ := run_saveIndex_not_ready (w := w'.lock.setEdition i ((w'.edition i).index.remove id)) (hs rfl)
      ((w'.edition i).index.remove id)
    refine ⟨.error e, (w'.setEdition i ((w'.edition i).index.remove id)).unlock, ?_, fun _ => ⟨e, rfl⟩, .refl _⟩
    simp only [removeBookmark, Task.run_bind, hload, Task.follow_ok, Task.run_locked, Task.run_look, State.lock_edition,
      hid, changeEdition, Task.run_act, Task.run_ofExcept, Bool.and_self, if_true, saveEdition, hedition, hsave,
      Task.follow_error]
    rfl
  | false =>
    obtain ⟨r, v, hforget, hv⟩ := forgetSimilar_elsewhere ((w'.setEdition i ((w'.edition i).index.remove id)).unlock)
    refine ⟨(Task.follow (r, v) fun _ => pure true).1, v, ?_, by simp, hv⟩
    have hrun : (removeBookmark id false).run w = Task.follow (r, v) fun _ => pure true := by
      rw [← hforget]
      simp only [removeBookmark, Task.run_bind, hload, Task.follow_ok, Task.run_locked, Task.run_look,
        State.lock_edition, hid, changeEdition, Task.run_act, Task.run_ofExcept, Bool.and_false, Bool.false_eq_true,
        if_false, if_true, Task.run_pure]
      rfl
    rw [hrun]
    cases r <;> rfl

theorem run_rebuildIndex_not_ready (h : ¬(w.Ready .getAll ∧ w.Ready .setCache)) :
    ∃ e, rebuildIndex.run w = (.error e, w.unlock) := by
  obtain ⟨e, hbuild⟩ := run_buildIndex_not_ready (w := w.lock) h
  refine ⟨e, ?_⟩
  simp only [rebuildIndex, Task.run_bind, Task.run_locked, hbuild, Task.follow_error]
  rfl

/-- A task whose answer does not matter. -/
theorem run_forgetAnswer {β : Type} (t : Task α β) (w : State α) : ∃ r,
    (t >>= fun _ => pure ()).run w = (r, (t.run w).2) ∧ ((∃ e, r = .error e) ↔ ∃ e, (t.run w).1 = .error e) := by
  rw [Task.run_bind]
  obtain ⟨_ | _, v⟩ := t.run w
  · exact ⟨_, rfl, by simp⟩
  · exact ⟨_, rfl, by simp⟩

/-- Making the index anew caches its snapshot first. -/
theorem outcome_rebuild (w : State α) (save : Bool) (i : Nat) :
    Outcome .rebuild save w i ((IndexChange.rebuild.task save).run w) := by
  obtain ⟨r, hrun, _⟩ := run_forgetAnswer rebuildIndex w
  have htask : (IndexChange.rebuild.task save).run w = (r, (rebuildIndex.run w).2) := hrun
  rw [htask]
  by_cases h : w.Ready .getAll ∧ w.Ready .setCache
  · obtain ⟨r', v, hforget, hv⟩ := forgetSimilar_elsewhere w.rebuilt
    have hstate : (rebuildIndex.run w).2 = v := by
      rw [run_rebuildIndex h.1 h.2, hforget]
      cases r' <;> rfl
    have hedition : (w.rebuilt.edition w.editions.length).index = w.builtIndex :=
      congrArg Edition.index (edition_withIndex (w.withCache _) w.builtIndex)
    have hlt : w.editions.length < w.rebuilt.editions.length := by
      simp [State.rebuilt, State.withIndex, State.publish, State.withCache, State.putCache, State.unlock]
    obtain ⟨since, hentry⟩ := cached_set w.store.cache w.now (indexEntry w.builtIndex w.now)
    rw [hstate]
    exact .both (.inl rfl) hv.current (hv.length ▸ hlt) ((hv.index _).trans hedition)
      ⟨w.now, since, hv.entry.trans hentry⟩
  · obtain ⟨e, hfail⟩ := run_rebuildIndex_not_ready h
    rw [hfail]
    exact .neither (fun ht => ht) ⟨rfl, rfl, fun _ => rfl, rfl⟩

section Loaded

variable (hi : w.current = some i) (hlt : i < w.editions.length)
  (hf : (w.edition i).index.fields = Bookmark.indexedFields)
include hi hlt hf

theorem outcome_update (b : Bookmark) (save : Bool) :
    Outcome (.update b) save w i (((IndexChange.update b).task save).run w) := by
  have hload := loadIndex_of_current hi
  have hok : ((w.edition i).index.update b).2 = .ok () := by
    simp [Index.update, Index.insertBookmark, Index.of_indexedFields hf b]
  by_cases hs : save = true ∧ w.Ready .setCache
  · obtain ⟨rfl, hs⟩ := hs
    obtain ⟨r, v, hforget, hv⟩ := forgetSimilar_elsewhere (w.saved i ((w.edition i).index.update b).1)
    have hrun : (updateBookmark b true).run w = (r, v) := (run_changeIndex hload hlt hok hs true).trans hforget
    show Outcome _ _ _ _ ((updateBookmark b true).run w)
    rw [hrun]
    exact Outcome.of_saved (c := .update b) hi hlt hs hv r
  · have hn : save = true → ¬w.Ready .setCache := fun h hr => hs ⟨h, hr⟩
    obtain ⟨r, v, hrun, hr, hv⟩ := run_changeIndex_unsaved (f := (·.update b)) hload hlt hok hn
    show Outcome _ _ _ _ ((changeIndex (·.update b) save).run w)
    rw [hrun]
    exact Outcome.of_unsaved (c := .update b) hi hlt trivial (fun h => ⟨hn h, hr h⟩) hv

omit hf in
theorem outcome_remove (id : String) (save : Bool) :
    Outcome (.remove id) save w i (((IndexChange.remove id).task save).run w) := by
  have hload := loadIndex_of_current hi
  obtain ⟨r, htask, hr⟩ := run_forgetAnswer (removeBookmark id save) w
  have htask' : ((IndexChange.remove id).task save).run w = (r, ((removeBookmark id save).run w).2) := htask
  rw [htask']
  cases hcontains : (w.edition i).index.contains id with
  | true =>
    by_cases hs : save = true ∧ w.Ready .setCache
    · obtain ⟨rfl, hs⟩ := hs
      obtain ⟨r', v, hforget, hv⟩ := forgetSimilar_elsewhere (w.saved i ((w.edition i).index.remove id))
      have hstate : ((removeBookmark id true).run w).2 = v := by
        rw [run_removeBookmark hload hlt hcontains hs true]
        show (Task.follow (forgetSimilar.run (w.saved i ((w.edition i).index.remove id))) _).2 = v
        rw [hforget]
        cases r' <;> rfl
      rw [hstate]
      exact Outcome.of_saved (c := .remove id) hi hlt hs hv r
    · have hn : save = true → ¬w.Ready .setCache := fun h hr => hs ⟨h, hr⟩
      obtain ⟨r', v, hrun, hr', hv⟩ := run_removeBookmark_unsaved hload hlt hcontains hn
      rw [hrun] at hr ⊢
      exact Outcome.of_unsaved (c := .remove id) hi hlt hcontains (fun h => ⟨hn h, hr.mpr (hr' h)⟩) hv
  | false =>
    have hsame : (w.edition i).index.remove id = (w.edition i).index :=
      Index.remove_of_not_mem fun hmem => by simp [Index.contains_iff.mpr hmem] at hcontains
    rw [run_removeBookmark_unknown hload hcontains save]
    refine .neither (by simp [IndexChange.Touches, hcontains]) ⟨rfl, ?_, fun j => ?_, rfl⟩
    · simp [State.setEdition, State.unlock]
    · show ((w.setEdition i ((w.edition i).index.remove id)).edition j).index = _
      by_cases hj : j = i
      · rw [hj, edition_setEdition hlt, hsame]
      · simp [State.setEdition, State.edition, Ne.symm hj]

/-- **A change of an index in memory ends in one of these ways.** -/
theorem outcome (c : IndexChange) (save : Bool) : Outcome c save w i ((c.task save).run w) := by
  cases c with
  | rebuild => exact outcome_rebuild w save i
  | add b =>
    have h := outcome_update hi hlt hf b save
    have htask : (IndexChange.add b).task save = ((IndexChange.update b).task save : Task α Unit) :=
      addBookmark_eq_updateBookmark b save
    rw [htask]
    generalize ((IndexChange.update b).task save).run w = r at h
    have htarget : (IndexChange.add b).target w (w.edition i).index =
        (IndexChange.update b).target w (w.edition i).index := congrArg Prod.fst (Index.add_eq_update _ b)
    cases h with
    | neither ht _ => exact absurd trivial ht
    | both hs hj hlt hix hc =>
      refine .both (hs.imp (fun h => by cases h) fun h => h) hj hlt (hix.trans htarget.symm) (htarget ▸ hc)
    | torn ht hs hi hlt hix hc => exact .torn ht hs hi hlt (hix.trans htarget.symm) hc
  | update b => exact outcome_update hi hlt hf b save
  | remove id => exact outcome_remove hi hlt id save

end Loaded

end Shelfmark.Engine
