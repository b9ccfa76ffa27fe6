import Shelfmark.Proofs.Engine.Deletions
import Shelfmark.Proofs.Engine.Quiet

/-!
# Similar pairs are current

Every bookmark that is kept or deleted is reported to the engine at once, and in between there are all kinds of other
operations (`Reported`).  As long as the engine finds in its index what is to be removed from it whenever a bookmark was
deleted while pairs were cached, the similar pairs that it finds, in the cache or not, are those of the bookmarks in the
store (`finds_current_pairs`).

The engine does not find it where the index was loaded after the deletion, and so from a store that does not have the
bookmark any more; then pairs with the deleted bookmark stay in the cache and are found (`not_finds_current_pairs`).
-/

namespace Shelfmark.Engine

open Similarity

variable {α : Type} [Scalar α] {w w₀ : State α}

/-! ## Runs -/

/-- The states of a run in which every change of the store is reported at once.  What was deleted while pairs were
cached is found in the index when it is to be removed. -/
inductive Reported (w₀ : State α) : State α → Prop
  | start : Reported w₀ w₀
  | add {w : State α} (b : Bookmark) (save : Bool) (h : Reported w₀ w) :
      Reported w₀ ((addBookmark b save).run ((keepOne b).run w).2).2
  | update {w : State α} (b : Bookmark) (save : Bool) (h : Reported w₀ w) :
      Reported w₀ ((updateBookmark b save).run ((keepOne b).run w).2).2
  | remove {w : State α} (id : String) (save : Bool) (h : Reported w₀ w)
      (hfound : ((deleteBookmark id).run w).1 = .ok true →
        ((removeBookmark id save).run ((deleteBookmark id).run w).2).1 = .ok true ∨ NoPairs w.store.cache) :
      Reported w₀ ((removeBookmark id save).run ((deleteBookmark id).run w).2).2
  | findSimilar {w : State α} (threshold : Option Number) (maxPairs : Option Int) (useCache : Bool)
      (h : Reported w₀ w) : Reported w₀ ((findSimilar threshold maxPairs useCache).run w).2
  | search {w : State α} (query : String) (active : Option Query.ActiveFilters) (options : Option Search.Options)
      (h : Reported w₀ w) : Reported w₀ ((search query active options).run w).2
  | load {w : State α} (h : Reported w₀ w) : Reported w₀ (loadIndex.run w).2
  | rebuild {w : State α} (h : Reported w₀ w) : Reported w₀ (rebuildIndex.run w).2
  | forget {w : State α} (h : Reported w₀ w) : Reported w₀ (forgetIndex.run w).2
  | clear {w : State α} (h : Reported w₀ w) : Reported w₀ (clearIndex.run w).2
  | fresh {w : State α} (h : Reported w₀ w) : Reported w₀ w.fresh
  | wait {w : State α} (seconds : Number) (h : Reported w₀ w) : Reported w₀ ((letPass seconds).run w).2
  | findDuplicates {w : State α} (h : Reported w₀ w) : Reported w₀ (findDuplicates.run w).2
  | findRelated {w : State α} (id : String) (limit : Int) (h : Reported w₀ w) :
      Reported w₀ ((findRelated id limit).run w).2
  | computeSimilar {w : State α} (id : String) (topN : Option Int) (corpus : Option (List Bookmark))
      (h : Reported w₀ w) : Reported w₀ ((computeSimilar id topN corpus).run w).2
  | similarTo {w : State α} (id : String) (limit : Option Int) (h : Reported w₀ w) :
      Reported w₀ ((similarTo id limit).run w).2
  | precompute {w : State α} (h : Reported w₀ w) : Reported w₀ (precompute.run w).2
  | scanForDuplicates {w : State α} (threshold : Number → α) (options : Option ScanOptions) (h : Reported w₀ w) :
      Reported w₀ ((scanForDuplicates threshold options).run w).2

/-! ## The invariant -/

/-- The engine is usable, and the cached pairs are those of the bookmarks in the store. -/
structure Current (w : State α) : Prop where
  usable : Usable w
  pairs : PairsFresh w.store.cache w.store.shelf

namespace Current

omit [Scalar α]

/-- With the same bookmarks, no new pairs may be cached. -/
theorem of_within {w' : State α} (h : Current w) (hw' : Usable w') (hshelf : w'.store.shelf = w.store.shelf)
    (hwithin : PairsWithin w.store.cache w'.store.cache) : Current w' :=
  ⟨hw', hshelf ▸ h.pairs.within hwithin⟩

/-- Without cached pairs, the bookmarks do not matter. -/
theorem of_noPairs (hw : Usable w) (hnone : NoPairs w.store.cache) : Current w := ⟨hw, hnone.fresh _⟩

theorem of_undisturbed {w' : State α} (h : Current w) (hw' : Undisturbed w w') : Current w' :=
  ⟨h.usable.of_sameIndex hw'.toSameIndex, by rw [hw'.cache, hw'.shelf]; exact h.pairs⟩

theorem of_quiet {β : Type} {t : Task α β} (h : Current w) (ht : Quiet t) : Current (t.run w).2 :=
  h.of_undisturbed (ht w)

/-- Keeping a bookmark and putting it into the index. -/
theorem update (h : Current w) (b : Bookmark) (save : Bool) :
    Current ((updateBookmark b save).run ((keepOne b).run w).2).2 := by
  rw [run_keepOne (h.usable.ready _) (h.usable.ready _)]
  obtain ⟨w', hrun, _, hnone, hw'⟩ := (h.usable.of_shelf (w.store.shelf.put b) w.store.records).update b save
  rw [hrun]
  exact of_noPairs hw' hnone

theorem add (h : Current w) (b : Bookmark) (save : Bool) :
    Current ((addBookmark b save).run ((keepOne b).run w).2).2 := by
  rw [addBookmark_eq_updateBookmark]
  exact h.update b save

/-- **Deleting a bookmark and removing it from the index, where it is found or no pairs are cached.** -/
theorem remove (h : Current w) (id : String) (save : Bool) (hfound : ((deleteBookmark id).run w).1 = .ok true →
      ((removeBookmark id save).run ((deleteBookmark id).run w).2).1 = .ok true ∨ NoPairs w.store.cache) :
    Current ((removeBookmark id save).run ((deleteBookmark id).run w).2).2 := by
  rw [h.usable.run_deleteBookmark] at hfound ⊢
  obtain ⟨removed, w', hrun, hshelf, hwithin, hnone, hw'⟩ := (h.usable.without id).remove id save
  rw [hrun] at hfound ⊢
  cases hcontains : w.store.shelf.contains id with
  | true =>
    rcases hfound (congrArg Except.ok hcontains) with hremoved | hbefore
    · exact of_noPairs hw' (hnone (Except.ok.inj hremoved))
    · exact of_noPairs hw' (hbefore.within hwithin)
  | false => exact h.of_within hw' (hshelf.trans (Shelf.remove_of_not_contains hcontains)) hwithin

theorem findSimilar (h : Current w) (threshold : Option Number) (maxPairs : Option Int) (useCache : Bool) :
    Current ((findSimilar threshold maxPairs useCache).run w).2 := by
  cases htext : (w.thresholdOf threshold).checkText with
  | error e =>
    rw [findSimilar_of_no_text htext]
    exact h
  | ok _ =>
    obtain ⟨w', hrun, hsame, hpairs⟩ :=
      findSimilar_spec (h.usable.ready _) (h.usable.ready _) (h.usable.ready _) h.pairs htext maxPairs useCache
    rw [hrun]
    exact ⟨h.usable.of_sameIndex hsame, hsame.shelf ▸ hpairs⟩

theorem load (h : Current w) : Current (loadIndex.run w).2 := by
  obtain ⟨_, w', hrun, _, hshelf, hwithin, hw'⟩ := h.usable.load
  rw [hrun]
  exact h.of_within hw' hshelf hwithin

theorem search (h : Current w) (query : String) (active : Option Query.ActiveFilters)
    (options : Option Search.Options) : Current ((search query active options).run w).2 := by
  rcases search_state w query active options with hs | hs
  · rwa [hs]
  · rw [hs]
    exact h.load

theorem rebuild (h : Current w) : Current (rebuildIndex.run w).2 := by
  obtain ⟨_, w', hrun, _, hnone, hw'⟩ := h.usable.rebuild
  rw [hrun]
  exact of_noPairs hw' hnone

theorem clear (h : Current w) : Current (clearIndex.run w).2 := by
  have hcleared := h.usable.clear
  rw [run_clearIndex (h.usable.ready _)] at hcleared ⊢
  exact h.of_within hcleared rfl (pairsWithin_set keyMatches_indexKey _ _ _ _)

theorem wait (h : Current w) (seconds : Number) : Current ((letPass seconds).run w).2 :=
  letPass_keeps h (fun _ => ⟨h.usable.of_sameIndex ⟨rfl, rfl, rfl, rfl, rfl, rfl, rfl⟩, h.pairs⟩) seconds

end Current

/-- **A run keeps the cached pairs current.** -/
theorem Reported.current (h₀ : Pristine w₀) (hnone : NoPairs w₀.store.cache) (h : Reported w₀ w) : Current w := by
  induction h with
  | start => exact .of_noPairs (.of_inStep h₀.inStep) hnone
  | add b save _ ih => exact ih.add b save
  | update b save _ ih => exact ih.update b save
  | remove id save _ hfound ih => exact ih.remove id save hfound
  | findSimilar threshold maxPairs useCache _ ih => exact ih.findSimilar threshold maxPairs useCache
  | search query active options _ ih => exact ih.search query active options
  | load _ ih => exact ih.load
  | rebuild _ ih => exact ih.rebuild
  | forget _ ih => exact ⟨ih.usable.forget, ih.pairs⟩
  | clear _ ih => exact ih.clear
  | fresh _ ih => exact ⟨ih.usable.fresh, ih.pairs⟩
  | wait seconds _ ih => exact ih.wait seconds
  | findDuplicates _ ih => exact ih.of_quiet quiet_findDuplicates
  | findRelated id limit _ ih => exact ih.of_quiet (quiet_findRelated id limit)
  | computeSimilar id topN corpus _ ih => exact ih.of_quiet (quiet_computeSimilar id topN corpus)
  | similarTo id limit _ ih => exact ih.of_quiet (quiet_similarTo id limit)
  | precompute _ ih => exact ih.of_quiet quiet_precompute
  | scanForDuplicates threshold options _ ih => exact ih.of_quiet (quiet_scanForDuplicates threshold options)

/-! ## The pairs that are found -/

/-- **The similar pairs that are found are those of the bookmarks in the store, and no others are named by them,** for
every threshold that has a text. -/
theorem finds_current_pairs (h₀ : Pristine w₀) (hnone : NoPairs w₀.store.cache) (h : Reported w₀ w)
    (threshold : Option Number) (htext : (w.thresholdOf threshold).checkText = .ok ()) (maxPairs : Option Int) :
    let ps := similarPairs w.store.shelf.all (threshold.getD w.settings.similarity.threshold).toFloat
      (maxPairs.getD w.settings.similarity.maxPairs)
    ((findSimilar threshold maxPairs true).run w).1 = .ok ps ∧
      ∀ p ∈ ps, p.first ∈ w.store.shelf.bookmarks ∧ p.second ∈ w.store.shelf.bookmarks := by
  intro ps
  have hw := h.current h₀ hnone
  obtain ⟨w', hrun, _, _⟩ :=
    findSimilar_spec (hw.usable.ready _) (hw.usable.ready _) (hw.usable.ready _) hw.pairs htext maxPairs true
  refine ⟨congrArg Prod.fst hrun, fun p hp => ?_⟩
  obtain ⟨hfirst, hsecond⟩ := mem_similarPairs hp
  exact ⟨Shelf.mem_all.mp hfirst, Shelf.mem_all.mp hsecond⟩

/-- The index is loaded and the pair of two bookmarks found; after one of them was removed, the pair is gone. -/
theorem finds_current_pairs_sample :
    let a : Bookmark := { id := "a", url := "a", title := "Rust" }
    let b : Bookmark := { id := "b", url := "b", title := "Lean" }
    let look : Task Float (List (SimilarPair Float)) := findSimilar (some (.int 0)) (some 100) true
    let w₀ : State Float := { store := { shelf := (({} : Shelf).put a).put b } }
    let w := (look.run (loadIndex.run w₀).2).2
    ∃ w', w' = ((removeBookmark "a" true).run ((deleteBookmark "a").run w).2).2 ∧ Pristine w₀ ∧
      NoPairs w₀.store.cache ∧ Reported w₀ w' ∧
        (look.run w').1 = .ok (similarPairs [b] (Number.int 0).toFloat 100) := by
  intro a b look w₀ w
  have h₀ : Pristine w₀ := ⟨rfl, rfl, rfl, rfl⟩
  have htext : ∀ v : State Float, (v.thresholdOf (some (.int 0))).checkText = .ok () := fun _ =>
    checkText_of_isShort (by decide +kernel)
  have hnone : NoPairs w₀.store.cache := by
    intro e he
    cases he
  have hloaded : Reported w₀ (loadIndex.run w₀).2 := .load .start
  obtain ⟨i, w₁, hload, hi, hshelf₁, hstep₁⟩ := h₀.inStep.load
  have hcurrent := hloaded.current h₀ hnone
  rw [hload] at hcurrent
  obtain ⟨w₂, hlook, hsame, _⟩ := findSimilar_spec (hstep₁.ready _) (hstep₁.ready _) (hstep₁.ready _) hcurrent.pairs
    (htext w₁) (some 100) true
  have hw : w = w₂ := by
    show (look.run (loadIndex.run w₀).2).2 = w₂
    rw [hload]
    exact congrArg Prod.snd hlook
  have hstep : InStep none w := by
    rw [hw]
    exact hstep₁.of_eq hsame.shelf hsame.entry hsame.isOpen hsame.faults hsame.editions hsame.current
  have hshelf : w.store.shelf = w₀.store.shelf := by
    rw [hw, hsame.shelf, hshelf₁]
  obtain ⟨_, hcached, _⟩ := hstep.loaded i (by rw [hw, hsame.current, hi])
  have hcontains : w.store.shelf.contains "a" = true := by
    rw [hshelf]
    decide +kernel
  have hreported : Reported w₀ ((removeBookmark "a" true).run ((deleteBookmark "a").run w).2).2 :=
    .remove "a" true (.findSimilar _ _ _ hloaded) fun _ => .inl (hstep.finds_deleted hcached hcontains true)
  have hdeleted := (Usable.of_inStep hstep).run_deleteBookmark "a"
  obtain ⟨_, w', hremove, hshelf', _⟩ := ((Usable.of_inStep hstep).without "a").remove "a" true
  have hw' : w' = ((removeBookmark "a" true).run ((deleteBookmark "a").run w).2).2 := by rw [hdeleted, hremove]
  have hleft : w'.store.shelf.all = [b] := by
    rw [hshelf']
    show (w.store.shelf.remove "a").all = [b]
    rw [hshelf]
    exact Shelf.all_of_pairwise (List.pairwise_singleton _ b)
  rw [← hw'] at hreported
  obtain ⟨hfound, _⟩ := finds_current_pairs h₀ hnone hreported (some (.int 0)) (htext w') (some 100)
  exact ⟨w', hw', h₀, hnone, hreported, hleft ▸ hfound⟩

/-- A pair with a bookmark that is deleted while nothing is known of the index. -/
theorem not_finds_current_pairs :
    let a : Bookmark := { id := "a", url := "a", title := "Rust" }
    let b : Bookmark := { id := "b", url := "b", title := "Lean" }
    let look : Task Float (List (SimilarPair Float)) := findSimilar (some (.int 0)) (some 100) true
    let w₀ : State Float := { store := { shelf := (({} : Shelf).put a).put b } }
    let w := (look.run w₀).2
    ∃ w', Pristine w₀ ∧ ((deleteBookmark "a").run w).1 = .ok true ∧
      (removeBookmark "a" true).run ((deleteBookmark "a").run w).2 = (.ok false, w') ∧
      w'.store.shelf.bookmarks = [b] ∧ ∃ p, (look.run w').1 = .ok [p] ∧ p.first = a ∧ p.second = b ∧
        (look.run w').1 ≠ .ok (similarPairs w'.store.shelf.all (Number.int 0).toFloat 100) := by
  intro a b look w₀ w
  have h₀ : Pristine w₀ := ⟨rfl, rfl, rfl, rfl⟩
  have husable : Usable w₀ := .of_inStep h₀.inStep
  have htext : (Number.int 0).checkText = .ok () := checkText_of_isShort (by decide +kernel)
  have hall : w₀.store.shelf.all = [a, b] := Shelf.all_of_pairwise (by decide +kernel)
  have hpairs : similarPairs w₀.store.shelf.all (Number.int 0).toFloat 100 = [⟨a, b, Scalar.zero, false, false⟩] := by
    rw [hall]
    exact similarPairs_of_disjoint (by decide +kernel) (by decide +kernel) (by decide +kernel) (by decide +kernel)
      (by decide +kernel) (by decide)
  have hlook : look.run w₀ = (.ok [⟨a, b, Scalar.zero, false, false⟩],
      w₀.withPairs (pairsKeyOf (.int 0)) [⟨a, b, Scalar.zero, false, false⟩] 100) := by
    rw [← hpairs]
    exact findSimilar_of_uncached (husable.ready _) (husable.ready _) (husable.ready _) htext rfl 100
  have hwithPairs : w = w₀.withPairs (pairsKeyOf (.int 0)) [⟨a, b, Scalar.zero, false, false⟩] 100 :=
    congrArg Prod.snd hlook
  have hset : w = w₀.withCache (w₀.store.cache.set w₀.now (pairsKeyOf (.int 0))
      (pairsEntry [⟨a, b, Scalar.zero, false, false⟩] 100 w₀.now) (some w₀.settings.similarity.pairsLifetime)) := by
    refine hwithPairs.trans (withPairs_of_room (checkEntry_pairsEntry w₀.host ?_ (by decide +kernel) (by decide) _))
    exact List.forall_mem_singleton.mpr ⟨by decide +kernel, by decide +kernel⟩
  have hsame := sameIndex_withPairs w₀ (.int 0) [⟨a, b, Scalar.zero, false, false⟩] 100
  rw [← hwithPairs] at hsame
  have hw : Usable w := husable.of_sameIndex hsame
  obtain ⟨w', hrun, hshelf, hnow, hw', hentries⟩ := hw.misses_deleted hsame.current hsame.entry "a" true
  have hentry := (hentries _ (pairsKeyOf_ne_indexKey (.int 0)).symm).trans
    ((congrArg (fun v => v.store.cache.entry? (pairsKeyOf (.int 0))) hset).trans Cache.entry_set)
  have hleft : w'.store.shelf.bookmarks = [b] := by
    rw [hshelf, hsame.shelf]
    rfl
  have hstale : (look.run w').1 = .ok [⟨a, b, Scalar.zero, false, false⟩] := by
    refine findSimilar_of_cached (hw'.ready _) htext hentry rfl ?_
    rw [hnow, hset]
    decide +kernel
  refine ⟨w', h₀, ?_, hrun, hleft, _, hstale, rfl, rfl, fun hequal => ?_⟩
  · rw [hw.run_deleteBookmark, hsame.shelf]
    rfl
  · -- a pair of the bookmarks that are left would not name the one that was deleted
    have hmem : ⟨a, b, Scalar.zero, false, false⟩ ∈
        similarPairs w'.store.shelf.all (Number.int 0).toFloat 100 := by
      rw [← Except.ok.inj (hstale.symm.trans hequal)]
      exact List.mem_singleton_self _
    have hfirst := Shelf.mem_all.mp (mem_similarPairs hmem).1
    rw [hleft, List.mem_singleton] at hfirst
    exact absurd (congrArg (·.id) hfirst) (by decide)

end Shelfmark.Engine
