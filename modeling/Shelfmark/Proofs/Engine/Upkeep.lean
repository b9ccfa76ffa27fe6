import Shelfmark.Proofs.Engine.InStep

/-!
# Upkeep of the index

Every bookmark that is kept or deleted is reported to the engine before the next one is changed.  At any time there are
searches, the index is loaded, made anew, forgotten or cleared, time passes, or a new engine takes over (`Reached`).

Then index and store stay in step (`Reached.inStep`): after each report the index, wherever it comes from, holds the
documents of the bookmarks in the store and no others, and whenever an index is in memory its snapshot is cached
(`index_in_step`).
-/

namespace Shelfmark.Engine

variable {α : Type}

/-! ## Runs -/

/-- An engine that has loaded nothing, over a store of any bookmarks without a snapshot of an index. -/
structure Pristine (w : State α) : Prop where
  faults : w.faults = []
  isOpen : w.store.isOpen = true
  cached : w.store.cache.entry? indexKey = none
  current : w.current = none

/-- The states of a run, each with the change of the store that is not reported yet. -/
inductive Reached (w₀ : State α) : Option Write → State α → Prop
  | start : Reached w₀ none w₀
  | keep {w : State α} (b : Bookmark) (h : Reached w₀ none w) : Reached w₀ (some (.keep b)) ((keepOne b).run w).2
  | add {w : State α} {b : Bookmark} (h : Reached w₀ (some (.keep b)) w) :
      Reached w₀ none ((addBookmark b true).run w).2
  | update {w : State α} {b : Bookmark} (h : Reached w₀ (some (.keep b)) w) :
      Reached w₀ none ((updateBookmark b true).run w).2
  | delete {w : State α} (id : String) (h : Reached w₀ none w) :
      Reached w₀ (some (.delete id)) ((deleteBookmark id).run w).2
  | remove {w : State α} {id : String} (h : Reached w₀ (some (.delete id)) w) :
      Reached w₀ none ((removeBookmark id true).run w).2
  | search {w : State α} {pending : Option Write} (query : String) (active : Option Query.ActiveFilters)
      (options : Option Search.Options) (h : Reached w₀ pending w) :
      Reached w₀ pending ((search query active options).run w).2
  | load {w : State α} {pending : Option Write} (h : Reached w₀ pending w) : Reached w₀ pending (loadIndex.run w).2
  | rebuild {w : State α} {pending : Option Write} (h : Reached w₀ pending w) :
      Reached w₀ pending (rebuildIndex.run w).2
  | forget {w : State α} {pending : Option Write} (h : Reached w₀ pending w) : Reached w₀ pending (forgetIndex.run w).2
  | clear {w : State α} {pending : Option Write} (h : Reached w₀ pending w) : Reached w₀ pending (clearIndex.run w).2
  | fresh {w : State α} {pending : Option Write} (h : Reached w₀ pending w) : Reached w₀ pending w.fresh
  | wait {w : State α} {pending : Option Write} (seconds : Number) (h : Reached w₀ pending w) :
      Reached w₀ pending ((letPass seconds).run w).2

variable {w w₀ : State α} {pending : Option Write}

theorem Pristine.inStep (h : Pristine w) : InStep none w := by
  refine ⟨h.faults, h.isOpen, by simp, Or.inl h.cached, fun i hi => ?_⟩
  rw [h.current] at hi
  cases hi

/-- **A run keeps index and store in step.** -/
theorem Reached.inStep (h₀ : Pristine w₀) (h : Reached w₀ pending w) : InStep pending w := by
  induction h with
  | start => exact h₀.inStep
  | keep b _ ih =>
    obtain ⟨_, hrun, _, hw'⟩ := ih.keep b
    rwa [hrun]
  | add _ ih =>
    obtain ⟨_, hrun, _, hw'⟩ := ih.add
    rwa [hrun]
  | update _ ih =>
    obtain ⟨_, hrun, _, hw'⟩ := ih.update
    rwa [hrun]
  | delete id _ ih =>
    obtain ⟨_, _, hrun, _, hw'⟩ := ih.delete id
    rwa [hrun]
  | remove _ ih =>
    obtain ⟨_, _, hrun, _, hw'⟩ := ih.remove
    rwa [hrun]
  | search query active options _ ih => exact ih.search query active options
  | load _ ih =>
    obtain ⟨_, _, hrun, _, _, hw'⟩ := ih.load
    rwa [hrun]
  | rebuild _ ih =>
    obtain ⟨_, _, hrun, _, hw'⟩ := ih.rebuild
    rwa [hrun]
  | forget _ ih => exact ih.forget
  | clear _ ih => exact ih.clear
  | fresh _ ih => exact ih.fresh
  | wait seconds _ ih => exact ih.wait seconds

/-! ## What this says of the index -/

/-- Everything is reported: the index has one document for each bookmark of the store, and no others. -/
theorem Reflects.documents {ix : Index} {s : Shelf} (h : Reflects none ix s) :
    (ix.documents.map (·.id)).Nodup ∧
      ∀ d, d ∈ ix.documents ↔ ∃ b ∈ s.bookmarks, Document.of Bookmark.indexedFields b = .ok d := by
  refine ⟨h.consistent.distinct, fun d => ?_⟩
  rw [Index.Mirrors.documents h d (by simp)]
  simp only [Document.of_indexed (fun _ hn => hn), Except.ok.injEq, eq_comm]

/-- The snapshot of an index in memory can be read from the cache. -/
theorem InStep.run_cached (h : InStep pending w) {ix : Index} (hix : w.currentIndex? = some ix) :
    ∃ v, (Engine.cached indexKey).run w = (.ok v, w) ∧ snapshotIn v = ix.snapshot := by
  obtain ⟨i, hi, rfl⟩ := Option.map_eq_some_iff.mp hix
  obtain ⟨_, ⟨now, since, hentry⟩, _⟩ := h.loaded i hi
  refine ⟨indexEntry (w.edition i).index now, ?_, rfl⟩
  rw [Engine.cached, run_store (h.ready _), Cache.get_of_value hentry rfl rfl]

/-- **Index and store stay in step.** -/
theorem index_in_step (h₀ : Pristine w₀) (h : Reached w₀ pending w) :
    (∀ ix, w.currentIndex? = some ix → ∃ v, (cached indexKey).run w = (.ok v, w) ∧ snapshotIn v = ix.snapshot) ∧
      (pending = none → ∃ i w', loadIndex.run w = (.ok i, w') ∧ w'.store.shelf = w.store.shelf ∧
        ((w'.edition i).index.documents.map (·.id)).Nodup ∧ ∀ d, d ∈ (w'.edition i).index.documents ↔
          ∃ b ∈ w.store.shelf.bookmarks, Document.of Bookmark.indexedFields b = .ok d) := by
  have hw := h.inStep h₀
  refine ⟨fun ix hix => hw.run_cached hix, ?_⟩
  rintro rfl
  obtain ⟨i, w', hrun, hi, hshelf, hw'⟩ := hw.load
  obtain ⟨_, _, hm⟩ := hw'.loaded i hi
  exact ⟨i, w', hrun, hshelf, hshelf ▸ hm.documents⟩

/-- A bookmark is kept and added; a new engine takes over, and a new version is kept and reported to it. -/
theorem index_in_step_sample :
    let b : Bookmark := { id := "a", title := "Java" }
    let b' : Bookmark := { id := "a", title := "Lean" }
    ∃ w₁ w₂ : State Unit, w₁ = ((addBookmark b true).run ((keepOne b).run {}).2).2 ∧
      w₂ = ((updateBookmark b' true).run ((keepOne b').run w₁.fresh).2).2 ∧ Pristine ({} : State Unit) ∧
      Reached {} none w₂ ∧ ∃ i w', loadIndex.run w₂ = (.ok i, w') ∧
        ∀ d, d ∈ (w'.edition i).index.documents ↔ Document.of Bookmark.indexedFields b' = .ok d := by
  intro b b'
  have h₀ : Pristine ({} : State Unit) := ⟨rfl, rfl, rfl, rfl⟩
  obtain ⟨wk, hk, sk, ik⟩ := h₀.inStep.keep b
  obtain ⟨wa, ha, sa, ia⟩ := ik.add
  obtain ⟨wk', hk', sk', ik'⟩ := ia.fresh.keep b'
  obtain ⟨wu, hu, su, iu⟩ := ik'.update
  have hwa : wa = ((addBookmark b true).run ((keepOne b).run {}).2).2 := by rw [hk, ha]
  have hwu : wu = ((updateBookmark b' true).run ((keepOne b').run wa.fresh).2).2 := by rw [hk', hu]
  have h : Reached {} none wu := by
    rw [hwu, hwa]
    exact .update (.keep b' (.fresh (.add (.keep b .start))))
  have hshelf : wu.store.shelf.bookmarks = [b'] := by
    rw [su, sk', show wa.fresh.store.shelf = _ from sa, sk]
    rfl
  obtain ⟨i, w', hrun, _, _, hd⟩ := (index_in_step h₀ h).2 rfl
  refine ⟨wa, wu, hwa, hwu, h₀, h, i, w', hrun, fun d => ?_⟩
  rw [hd d, hshelf]
  simp

end Shelfmark.Engine
