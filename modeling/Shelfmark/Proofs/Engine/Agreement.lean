import Shelfmark.Proofs.Engine.Saving
import Shelfmark.Proofs.Engine.Upkeep

/-!
# Agreement of index and snapshot

In every state that an engine can come to (`Worked`) the indexes in memory and in the cache can be read back from their
snapshots (`Sound`).  Where the two agree, a change keeps them in agreement if it makes the index anew or the snapshot
can be cached, whether the call fails or not, and else it tears them apart (`change_agrees`).
-/

namespace Shelfmark.Engine

variable {α : Type} {w w' v : State α} {ix : Index} {c : IndexChange} {i : Nat} {save : Bool}

/-! ## Indexes that can be read back -/

/-- The index has the fields of bookmarks, and its documents have them all. -/
structure Whole (ix : Index) : Prop where
  fields : ix.fields = Bookmark.indexedFields
  covers : ∀ d ∈ ix.documents, Index.Covers ix.fields d

theorem Whole.update (h : Whole ix) (b : Bookmark) : Whole (ix.update b).1 := by
  refine ⟨Index.fields_update.trans h.fields, fun d hd => ?_⟩
  rw [Index.fields_update]
  rcases (Index.mem_documents_update h.fields).mp hd with ⟨hd, _⟩ | rfl
  · exact h.covers d hd
  · rw [h.fields]
    exact Index.covers_docOf _ b

theorem Whole.remove (h : Whole ix) (id : String) : Whole (ix.remove id) := by
  refine ⟨Index.fields_remove.trans h.fields, fun d hd => ?_⟩
  rw [Index.fields_remove]
  exact h.covers d (Index.mem_documents_remove.mp hd).1

theorem whole_builtIndex (w : State α) : Whole w.builtIndex :=
  have h := reflects_builtIndex w none
  ⟨h.fields, h.covers⟩

theorem Whole.target (h : Whole ix) (c : IndexChange) (w : State α) : Whole (c.target w ix) := by
  cases c with
  | rebuild => exact whole_builtIndex w
  | add b =>
    show Whole (ix.add b).1
    rw [Index.add_eq_update]
    exact h.update b
  | update b => exact h.update b
  | remove id => exact h.remove id

/-- **An index is read back from its snapshot with the same documents.** -/
theorem Whole.ofSnapshot (h : Whole ix) (room : Nat) :
    ∃ ix', Index.ofSnapshot room ix.snapshot = .ok ix' ∧ ix'.documents = ix.documents ∧ Whole ix' := by
  refine ⟨_, Index.ofSnapshot_snapshot room h.covers, by simp, ?_, ?_⟩
  · simpa using h.fields
  · simpa using h.covers

/-- The cached snapshot, if there is one, and the index in memory, if there is one, can be read back. -/
structure Sound (w : State α) : Prop where
  cached : w.store.cache.entry? indexKey = none ∨ Cached w.store.cache .null ∨
    ∃ ix, CachedIndex w.store.cache ix ∧ Whole ix
  loaded : ∀ i, w.current = some i → i < w.editions.length ∧ Whole (w.edition i).index

theorem CachedIndex.of_entry_eq {c c' : Cache} (h : CachedIndex c ix) (he : c'.entry? indexKey = c.entry? indexKey) :
    CachedIndex c' ix := by
  simpa only [CachedIndex, Cached, he] using h

theorem Sound.of_elsewhere (h : Sound w) (he : Elsewhere w w') : Sound w' := by
  refine ⟨?_, fun i hi => ?_⟩
  · simpa only [Cached, CachedIndex, he.entry] using h.cached
  · rw [he.length, he.index]
    exact h.loaded i (he.current ▸ hi)

/-- An index that can be read back is published. -/
theorem Sound.publish {c : Cache} (hw : Whole ix) (hc : c.entry? indexKey = none ∨ Cached c .null ∨
    ∃ ix, CachedIndex c ix ∧ Whole ix) : Sound ((w.withCache c).withIndex ix) := by
  refine ⟨hc, fun i hi => ?_⟩
  obtain rfl : w.editions.length = i := Option.some.inj hi
  have hedition : ((w.withCache c).withIndex ix).edition w.editions.length = ⟨ix, false⟩ := edition_withIndex _ ix
  rw [hedition]
  exact ⟨by simp [State.withIndex, State.publish, State.withCache, State.putCache, State.unlock], hw⟩

/-- What is cached of an index is read as an index with the same documents. -/
theorem lookup_of_cachedIndex (hc : CachedIndex w.store.cache ix) (h : Whole ix) :
    ∃ ix', w.cachedIndex = .ok (some ix') ∧ w.indexLookup.2 = w.store.cache ∧
      ix'.documents = ix.documents ∧ Whole ix' := by
  obtain ⟨now, since, hentry⟩ := hc
  obtain ⟨ix', hread, hdocuments, hwhole⟩ := h.ofSnapshot w.host.room
  have hlookup : w.indexLookup = (.ok (indexEntry ix now), w.store.cache) := Cache.get_of_value hentry rfl rfl
  refine ⟨ix', ?_, by rw [hlookup], hdocuments, hwhole⟩
  rw [State.cachedIndex, hlookup]
  exact indexIn_indexEntry hread now

theorem Sound.lookup (h : Sound w) : w.indexLookup.2 = w.store.cache ∧
    ∃ found, w.cachedIndex = .ok found ∧ ∀ ix ∈ found, Whole ix := by
  rcases h.cached with hnone | ⟨since, hnull⟩ | ⟨ix₀, hc, hw⟩
  · rw [State.cachedIndex, State.indexLookup, Cache.get_of_none hnone]
    exact ⟨rfl, none, rfl, fun ix hix => by cases hix⟩
  · rw [State.cachedIndex, State.indexLookup, Cache.get_of_value hnull rfl rfl]
    exact ⟨rfl, none, rfl, fun ix hix => by cases hix⟩
  · obtain ⟨ix', hread, hcache, _, hw'⟩ := lookup_of_cachedIndex hc hw
    refine ⟨hcache, some ix', hread, fun ix hix => ?_⟩
    cases hix
    exact hw'

/-- The index is loaded, or cannot be: what is there can be read back as before. -/
theorem Sound.load (h : Sound w) : Sound (loadIndex.run w).2 := by
  obtain ⟨hcache, found, hread, hwhole⟩ := h.lookup
  have hl := loading w
  generalize loadIndex.run w = r at hl
  cases hl with
  | memory => exact h
  | restored hn hc hs =>
    cases hread.symm.trans hs
    exact Sound.publish (hwhole _ rfl) (hcache ▸ h.cached)
  | built hn hc hs ha hset =>
    exact Sound.publish (whole_builtIndex w) (.inr (.inr ⟨_, ⟨w.now, cached_set _ _ _⟩, whole_builtIndex w⟩))
  | unread hn hc => exact h.of_elsewhere ⟨rfl, rfl, fun _ => rfl, rfl⟩
  | unusable hn hc hs => exact absurd (hread.symm.trans hs) (by simp)
  | unbuilt hn hc hs hb =>
    refine h.of_elsewhere ⟨rfl, rfl, fun _ => rfl, ?_⟩
    show Cache.entry? w.indexLookup.2 indexKey = _
    rw [hcache]

theorem Sound.forgotten (h : Sound w) (hc : w'.store.cache = w.store.cache) (hn : w'.current = none) : Sound w' := by
  refine ⟨hc ▸ h.cached, fun i hi => ?_⟩
  rw [hn] at hi
  cases hi

theorem Sound.clear (h : Sound w) : Sound (clearIndex.run w).2 := by
  by_cases hs : w.Ready .setCache
  · rw [run_clearIndex hs]
    exact ⟨.inr (.inl (cached_set _ _ _)), fun i hi => by cases hi⟩
  · obtain ⟨e, _, hrun⟩ := run_store_not_ready (w := { w.lock with current := none }) hs
    have hstate : (clearIndex.run w).2 = { w.unlock with current := none } := by
      simp only [clearIndex, Task.run_locked, forgetIndex, Task.run_bind, Task.run_change, Task.follow_ok, cacheValue,
        hrun]
      rfl
    rw [hstate]
    exact h.forgotten rfl rfl

/-! ## Changes -/

theorem Sound.of_outcome {r : Except Fault Unit × State α} (h : Sound w) (hr : Outcome c save w i r)
    (ht : Whole (c.target w (w.edition i).index)) : Sound r.2 := by
  cases hr with
  | neither _ he => exact h.of_elsewhere he
  | both hs hj hlt hix hc =>
    refine ⟨.inr (.inr ⟨_, hc, ht⟩), fun k hk => ?_⟩
    cases hj.symm.trans hk
    exact ⟨hlt, hix ▸ ht⟩
  | torn _ hs hi hlt hix hc =>
    refine ⟨?_, fun k hk => ?_⟩
    · simpa only [Cached, CachedIndex, hc] using h.cached
    · cases hi.symm.trans hk
      exact ⟨hlt, hix ▸ ht⟩

/-- A change begins with loading the index, if it does not make it anew. -/
theorem run_task_loading (hc : c ≠ .rebuild) (save : Bool) :
    ∃ g : Nat → Task α Unit, ∀ w, (c.task save).run w = Task.follow (loadIndex.run w) g := by
  have hloaded : ∀ {β : Type} (t : Task α β) (g : Nat → Task α β), t = loadIndex >>= g →
      ∀ w, t.run w = Task.follow (loadIndex.run w) g := by
    rintro β t g rfl w
    exact Task.run_bind _ _ w
  cases c with
  | rebuild => exact absurd rfl hc
  | add b => exact ⟨_, hloaded (addBookmark b save) _ rfl⟩
  | update b => exact ⟨_, hloaded (updateBookmark b save) _ rfl⟩
  | remove id =>
    obtain ⟨g, hg⟩ : ∃ g, ∀ w : State α, (removeBookmark id save).run w = Task.follow (loadIndex.run w) g :=
      ⟨_, hloaded _ _ rfl⟩
    refine ⟨fun i => g i >>= fun _ => pure (), fun w => ?_⟩
    show (removeBookmark id save >>= fun _ => pure ()).run w = _
    rw [Task.run_bind, hg w]
    obtain ⟨_ | i, v⟩ := loadIndex.run w
    · rfl
    · simp only [Task.follow_ok, Task.run_bind]

theorem Sound.change (h : Sound w) (c : IndexChange) (save : Bool) : Sound ((c.task save).run w).2 := by
  by_cases hc : c = .rebuild
  · subst hc
    exact h.of_outcome (outcome_rebuild w save 0) (whole_builtIndex w)
  · obtain ⟨g, hg⟩ := run_task_loading (α := α) hc save
    have hload := h.load
    have hcurrent := loading w
    rw [hg w]
    generalize loadIndex.run w = r at hload hcurrent
    obtain ⟨_ | i, v⟩ := r
    · exact hload
    · have hi : v.current = some i := hcurrent.current rfl
      obtain ⟨hlt, hwhole⟩ := hload.loaded i hi
      have hsame : Task.follow (.ok i, v) g = (c.task save).run v := by rw [hg v, loadIndex_of_current hi]
      rw [hsame]
      exact hload.of_outcome (outcome hi hlt hwhole.fields c save) (hwhole.target c v)

/-! ## Engines at work -/

/-- The states that an engine can come to from one that has loaded nothing: the index is loaded, changed, forgotten,
cleared and searched, a new engine takes over, and anything else happens that leaves index and snapshot alone.  Any
operation of the store may be out of order at any time. -/
inductive Worked (w₀ : State α) : State α → Prop
  | start : Worked w₀ w₀
  | load {w : State α} (h : Worked w₀ w) : Worked w₀ (loadIndex.run w).2
  | change {w : State α} (c : IndexChange) (save : Bool) (h : Worked w₀ w) : Worked w₀ ((c.task save).run w).2
  | forget {w : State α} (h : Worked w₀ w) : Worked w₀ (forgetIndex.run w).2
  | clear {w : State α} (h : Worked w₀ w) : Worked w₀ (clearIndex.run w).2
  | fresh {w : State α} (h : Worked w₀ w) : Worked w₀ w.fresh
  | search {w : State α} (query : String) (active : Option Query.ActiveFilters) (options : Option Search.Options)
      (h : Worked w₀ w) : Worked w₀ ((search query active options).run w).2
  | elsewhere {w w' : State α} (he : Elsewhere w w') (h : Worked w₀ w) : Worked w₀ w'

/-- **Whatever an engine does, its indexes can be read back.** -/
theorem Worked.sound {w₀ : State α} (h₀ : Pristine w₀) (h : Worked w₀ w) : Sound w := by
  induction h with
  | start =>
    refine ⟨.inl h₀.cached, fun i hi => ?_⟩
    rw [h₀.current] at hi
    cases hi
  | load _ ih => exact ih.load
  | change c save _ ih => exact ih.change c save
  | forget _ ih => exact ih.forgotten rfl rfl
  | clear _ ih => exact ih.clear
  | fresh _ ih => exact ih.forgotten rfl rfl
  | search query active options _ ih =>
    rcases search_state _ query active options with hs | hs
    · rwa [hs]
    · rw [hs]
      exact ih.load
  | elsewhere he _ ih => exact ih.of_elsewhere he

/-! ## Agreement -/

/-- What is read from the cache is the snapshot of an index. -/
def State.HasSnapshot (w : State α) (ix : Index) : Prop :=
  ∃ value, w.indexLookup.1 = .ok value ∧ snapshotIn value = ix.snapshot

theorem CachedIndex.hasSnapshot (h : CachedIndex w.store.cache ix) : w.HasSnapshot ix := by
  obtain ⟨now, since, hentry⟩ := h
  refine ⟨indexEntry ix now, ?_, rfl⟩
  rw [State.indexLookup, Cache.get_of_value hentry rfl rfl]

/-- An index is in memory and its snapshot in the cache; and an engine that forgets the index, or a new one, loads an
index with the same documents as soon as it can read the cache. -/
structure InAgreement (w : State α) (ix : Index) : Prop where
  memory : w.currentIndex? = some ix
  snapshot : w.HasSnapshot ix
  later : ∀ v : State α, v.current = none → v.store.cache = w.store.cache → v.Ready .getCache →
    ∃ i v', loadIndex.run v = (.ok i, v') ∧ (v'.edition i).index.documents = ix.documents

/-- The cached snapshot of an index is loaded. -/
theorem load_of_cachedIndex (hc : CachedIndex v.store.cache ix) (h : Whole ix) (hn : v.current = none)
    (hr : v.Ready .getCache) :
    ∃ i v', loadIndex.run v = (.ok i, v') ∧ (v'.edition i).index.documents = ix.documents := by
  obtain ⟨ix', hread, _, hdocuments, _⟩ := lookup_of_cachedIndex hc h
  have hl := loading v
  generalize loadIndex.run v = r at hl
  cases hl with
  | memory hi => exact absurd (hn.symm.trans hi) (by simp)
  | restored _ _ hs =>
    cases hread.symm.trans hs
    refine ⟨_, _, rfl, ?_⟩
    have hedition : ((v.withCache v.indexLookup.2).withIndex ix').edition v.editions.length = ⟨ix', false⟩ :=
      edition_withIndex _ ix'
    rw [hedition]
    exact hdocuments
  | built _ _ hs | unusable _ _ hs | unbuilt _ _ hs => exact absurd (hread.symm.trans hs) (by simp)
  | unread _ hc' => exact absurd hr hc'

theorem Whole.agrees (h : Whole ix) {i : Nat} (hi : w.current = some i) (hix : (w.edition i).index = ix)
    (hc : CachedIndex w.store.cache ix) : InAgreement w ix := by
  refine ⟨?_, hc.hasSnapshot, fun v hn hcache hr => load_of_cachedIndex (hcache ▸ hc) h hn hr⟩
  rw [State.currentIndex?, hi, Option.map_some, hix]

/-- A snapshot that is read from the cache was put there. -/
theorem Sound.cachedIndex (h : Sound w) (hs : w.HasSnapshot ix) : CachedIndex w.store.cache ix := by
  obtain ⟨value, hread, hsnapshot⟩ := hs
  rcases h.cached with hnone | ⟨since, hnull⟩ | ⟨ix₀, ⟨now, since, hentry⟩, _⟩
  · rw [State.indexLookup, Cache.get_of_none hnone] at hread
    cases hread
    cases hsnapshot
  · rw [State.indexLookup, Cache.get_of_value hnull rfl rfl] at hread
    cases hread
    cases hsnapshot
  · rw [State.indexLookup, Cache.get_of_value hentry rfl rfl] at hread
    cases hread
    exact CachedIndex.of_snapshot_eq ⟨now, since, hentry⟩ hsnapshot.symm

/-- The index was changed and the snapshot was not. -/
structure TornApart (c : IndexChange) (w : State α) (ix : Index) (r : Except Fault Unit × State α) : Prop where
  raised : ∃ e, r.1 = .error e
  memory : r.2.currentIndex? = some (c.target w ix)
  snapshot : r.2.HasSnapshot ix
  later : ∀ v : State α, v.current = none → v.store.cache = r.2.store.cache → v.Ready .getCache →
    ∃ i v', loadIndex.run v = (.ok i, v') ∧ (v'.edition i).index.documents = ix.documents

section Agreement

variable (h : Sound w) (hi : w.current = some i) (hs : w.HasSnapshot (w.edition i).index)
include h hi hs

theorem Sound.agrees (hc : c = .rebuild ∨ w.Ready .setCache ∨ ¬c.Touches (w.edition i).index) :
    ∃ ix, (ix = (w.edition i).index ∨ ix = c.target w (w.edition i).index) ∧
      InAgreement ((c.task true).run w).2 ix := by
  obtain ⟨hlt, hwhole⟩ := h.loaded i hi
  have hcached := h.cachedIndex hs
  have hr := outcome hi hlt hwhole.fields c true
  generalize (c.task true).run w = r at hr
  cases hr with
  | neither _ he =>
    exact ⟨_, .inl rfl, hwhole.agrees (he.current.trans hi) (he.index i) (hcached.of_entry_eq he.entry)⟩
  | both _ hj _ hix hcached' => exact ⟨_, .inr rfl, (hwhole.target c w).agrees hj hix hcached'⟩
  | torn ht hn =>
    rcases hc with rfl | hset | hc
    · exact absurd ht fun ht => ht
    · exact absurd hset (hn rfl).1
    · exact absurd ht hc

theorem Sound.tears (hc : c.Touches (w.edition i).index) (hset : ¬w.Ready .setCache) :
    TornApart c w (w.edition i).index ((c.task true).run w) := by
  obtain ⟨hlt, hwhole⟩ := h.loaded i hi
  have hcached := h.cachedIndex hs
  have hr := outcome hi hlt hwhole.fields c true
  generalize (c.task true).run w = r at hr
  cases hr with
  | neither ht => exact absurd hc ht
  | both hsaved =>
    rcases hsaved with rfl | ⟨_, hready⟩
    · exact absurd hc fun hc => hc
    · exact absurd hready hset
  | torn _ hn hi' _ hix hentry =>
    have hcached' := hcached.of_entry_eq hentry
    refine ⟨(hn rfl).2, ?_, hcached'.hasSnapshot, fun v hnone hcache hready => ?_⟩
    · rw [State.currentIndex?, hi', Option.map_some, hix]
    · exact load_of_cachedIndex (hcache ▸ hcached') hwhole hnone hready

end Agreement

/-- **What a change leaves of the agreement of index and snapshot.**  They stay in agreement, both as they were or both
changed, if the index is made anew or the snapshot can be cached, whether the call fails or not.  If the snapshot cannot
be cached, a change of the index in memory fails and tears them apart. -/
theorem change_agrees {w₀ : State α} (h₀ : Pristine w₀) (h : Worked w₀ w) (hix : w.currentIndex? = some ix)
    (hs : w.HasSnapshot ix) (c : IndexChange) :
    (c = .rebuild ∨ w.Ready .setCache ∨ ¬c.Touches ix →
      ∃ ix', (ix' = ix ∨ ix' = c.target w ix) ∧ InAgreement ((c.task true).run w).2 ix') ∧
    (c.Touches ix → ¬w.Ready .setCache → TornApart c w ix ((c.task true).run w)) := by
  obtain ⟨i, hi, rfl⟩ := Option.map_eq_some_iff.mp hix
  have hsound := h.sound h₀
  exact ⟨hsound.agrees hi hs, hsound.tears hi hs⟩

/-- The index of an empty store was loaded, and then an operation of the store went out of order. -/
theorem exists_loaded_empty (op : StoreOperation) : ∃ w : State Unit,
    w = ((putOutOfOrder op "db down").run (loadIndex.run {}).2).2 ∧ Worked {} w ∧
      (∀ op', w.Ready op' ↔ op' ≠ op) ∧ ∃ i, w.current = some i ∧ CachedIndex w.store.cache (w.edition i).index ∧
        (w.edition i).index.fields = Bookmark.indexedFields ∧ (w.edition i).index.documents = [] := by
  have h₀ : Pristine ({} : State Unit) := ⟨rfl, rfl, rfl, rfl⟩
  obtain ⟨i, w, hrun, hi, hshelf, hstep⟩ := h₀.inStep.load
  obtain ⟨_, hc, hm⟩ := hstep.loaded i hi
  have hloaded : Worked {} w := by
    have h : Worked ({} : State Unit) (loadIndex.run {}).2 := .load .start
    rwa [hrun] at h
  refine ⟨{ w with faults := [(op, "db down")] }, ?_, .elsewhere (w := w) ⟨rfl, rfl, fun _ => rfl, rfl⟩ hloaded,
    fun op' => ?_, i, hi, hc, hm.fields, ?_⟩
  · rw [hrun]
    show _ = { w with faults := (op, "db down") :: w.faults }
    rw [hstep.faults]
  · have hopen : w.store.isOpen = true := hstep.isOpen
    rw [ne_comm (a := op')]
    simp [State.Ready, State.faultOf, hopen]
  · refine List.eq_nil_iff_forall_not_mem.mpr fun d hd => ?_
    obtain ⟨b, hb, _⟩ := (Index.Mirrors.documents hm d (by simp)).mp hd
    rw [hshelf] at hb
    cases hb

/-- A bookmark is added while nothing can be removed from the cache: index and snapshot have it. -/
theorem change_agrees_sample :
    let b : Bookmark := { id := "a" }
    ∃ w : State Unit, w = ((putOutOfOrder .clearCache "db down").run (loadIndex.run {}).2).2 ∧
      Pristine ({} : State Unit) ∧ Worked {} w ∧ ∃ ix, w.currentIndex? = some ix ∧ w.HasSnapshot ix ∧
        ∃ ix', InAgreement (((IndexChange.add b).task true).run w).2 ix' := by
  intro b
  obtain ⟨w, hw, hworked, hready, i, hi, hc, _, _⟩ := exists_loaded_empty .clearCache
  have h₀ : Pristine ({} : State Unit) := ⟨rfl, rfl, rfl, rfl⟩
  have hix : w.currentIndex? = some (w.edition i).index := by rw [State.currentIndex?, hi, Option.map_some]
  have hset : w.Ready .setCache := (hready _).mpr (by simp)
  obtain ⟨ix', _, hagrees⟩ := (change_agrees h₀ hworked hix hc.hasSnapshot (.add b)).1 (.inr (.inl hset))
  exact ⟨w, hw, h₀, hworked, _, hix, hc.hasSnapshot, ix', hagrees⟩

/-- A bookmark is added while nothing can be cached: the call fails, and the index has the bookmark while the snapshot
does not. -/
theorem add_tears_apart :
    let b : Bookmark := { id := "a" }
    ∃ w : State Unit, w = ((putOutOfOrder .setCache "db down").run (loadIndex.run {}).2).2 ∧
      Pristine ({} : State Unit) ∧ Worked {} w ∧ (∃ ix, w.currentIndex? = some ix ∧ w.HasSnapshot ix) ∧
        (∃ e, ((addBookmark b true).run w).1 = .error e) ∧ ¬∃ ix, InAgreement ((addBookmark b true).run w).2 ix := by
  intro b
  obtain ⟨w, hw, hworked, hready, i, hi, hc, hf, hempty⟩ := exists_loaded_empty .setCache
  have h₀ : Pristine ({} : State Unit) := ⟨rfl, rfl, rfl, rfl⟩
  have hix : w.currentIndex? = some (w.edition i).index := by rw [State.currentIndex?, hi, Option.map_some]
  have hset : ¬w.Ready .setCache := fun h => (hready _).mp h rfl
  have htears : TornApart (.add b) w (w.edition i).index ((addBookmark b true).run w) :=
    (hworked.sound h₀).tears (c := .add b) hi hc.hasSnapshot trivial hset
  refine ⟨w, hw, h₀, hworked, ⟨_, hix, hc.hasSnapshot⟩, htears.raised, ?_⟩
  rintro ⟨ix, hagrees⟩
  have hadded : ix.documents = [Document.docOf Bookmark.indexedFields b] := by
    cases htears.memory.symm.trans hagrees.memory
    show ((w.edition i).index.add b).1.documents = _
    rw [Index.add_eq_update, Index.documents_update (Index.of_indexedFields hf b), hempty]
    rfl
  -- a new engine would have to load both the empty index and the one with the bookmark
  obtain ⟨j, v, hload, hdocuments⟩ := htears.later { store := { cache := _ } } rfl rfl ⟨rfl, rfl⟩
  obtain ⟨j', v', hload', hdocuments'⟩ := hagrees.later { store := { cache := _ } } rfl rfl ⟨rfl, rfl⟩
  cases hload.symm.trans hload'
  rw [hdocuments, hempty, hadded] at hdocuments'
  cases hdocuments'

end Shelfmark.Engine
