import Shelfmark.Proofs.Engine.Candidates
import Shelfmark.Proofs.Engine.Reading
import Shelfmark.Proofs.Similarity.Records
import Shelfmark.Proofs.Store.Records

/-!
# Comparisons

- The candidates that are found are kept in the store, each of them once, and none of them is the target
  (`isCandidates_of_run`);
- `Comparing`: how a bookmark is compared, with everything that may happen on the way (`comparing`);
- `Answering`: how the records of a bookmark are answered, with everything that may happen on the way (`answering`).
-/

namespace Shelfmark.Engine

open Similarity

variable {α β : Type} {w w' : State α} {s : Shelf} {id : String} {target : Bookmark} {bs : List Bookmark}
  {corpus : Option (List Bookmark)}

/-! ## The candidates -/

/-- The bookmarks are on the shelf, each stands in the list once, and the target does not. -/
structure IsCandidates (s : Shelf) (target : Bookmark) (bs : List Bookmark) : Prop where
  known : ∀ b ∈ bs, b ∈ s.bookmarks
  others : ∀ b ∈ bs, b.id ≠ target.id
  distinct : (bs.map (·.id)).Nodup

theorem isCandidates_select {sameDomain sameCategory pool : List Bookmark} (hd : ∀ b ∈ sameDomain, b ∈ s.bookmarks)
    (hc : ∀ b ∈ sameCategory, b ∈ s.bookmarks) (hp : ∀ b ∈ pool, b ∈ s.bookmarks) (target : Bookmark) (caps : Caps) :
    IsCandidates s target (select target sameDomain sameCategory pool caps) := by
  refine ⟨fun b hb => ?_, fun b hb => (mem_select hb).2, nodup_ids_select _ _ _ _ _⟩
  rcases (mem_select hb).1 with h | h | h
  · exact hd b h
  · exact hc b h
  · exact hp b h

theorem isCandidates_among (h : ∀ b ∈ bs, b ∈ s.bookmarks) (target : Bookmark) (caps : Caps) :
    IsCandidates s target (candidatesAmong target bs caps) := by
  have hsorted : ∀ b ∈ newestFirst bs, b ∈ s.bookmarks := fun b hb => h b ((List.mergeSort_perm _ _).mem_iff.mp hb)
  exact isCandidates_select (fun b hb => hsorted b (List.mem_filter.mp hb).1)
    (fun b hb => hsorted b (List.mem_filter.mp hb).1) hsorted target caps

/-- The answer of a look-up consists of bookmarks on the shelf. -/
def FromShelf (t : Task α (List Bookmark)) : Prop :=
  ∀ {w w' bs}, t.run w = (.ok bs, w') → ∀ b ∈ bs, b ∈ w.store.shelf.bookmarks

/-- A look-up that lists a part of the shelf, if anything, wherever it is in order. -/
theorem fromShelf_of_run {op : StoreOperation} {f : State α → Except Fault (List Bookmark) × State α}
    (part : Shelf → Except Fault (List Bookmark))
    (hpart : ∀ {s bs b}, part s = .ok bs → b ∈ bs → b ∈ s.bookmarks)
    (hrun : ∀ w, w.Ready op → (Task.store op f).run w = (part w.store.shelf, w)) :
    FromShelf (Task.store op f) := by
  intro w w' bs h
  by_cases hw : w.Ready op
  · rw [hrun w hw] at h
    exact fun b hb => hpart (congrArg Prod.fst h) hb
  · obtain ⟨e, _, he⟩ := run_store_not_ready hw
    rw [he] at h
    cases h

theorem fromShelf_allBookmarks : FromShelf (allBookmarks : Task α _) := by
  refine fromShelf_of_run (fun s => .ok s.all) (fun h hb => ?_) fun _ hw => run_allBookmarks hw
  cases h
  exact Shelf.mem_all.mp hb

theorem fromShelf_bookmarksOfDomain (domain : String) (limit : Option Int) :
    FromShelf (bookmarksOfDomain domain limit : Task α _) :=
  fromShelf_of_run (fun s => s.ofDomain domain limit) Shelf.mem_of_mem_withColumn
    fun _ hw => run_bookmarksOfDomain hw domain limit

theorem fromShelf_bookmarksOfCategory (category : String) (limit : Option Int) :
    FromShelf (bookmarksOfCategory category limit : Task α _) :=
  fromShelf_of_run (fun s => s.ofCategory category limit) Shelf.mem_of_mem_withColumn
    fun _ hw => run_bookmarksOfCategory hw category limit

/-- All bookmarks are listed, or none where they cannot be read. -/
theorem exists_allBookmarks (w : State α) :
    ∃ cs, (orElse allBookmarks []).run w = (.ok cs, w) ∧ ∀ b ∈ cs, b ∈ w.store.shelf.bookmarks := by
  have hreads := reads_allBookmarks.run w
  rw [run_orElse]
  cases hr : (allBookmarks.run w).1 with
  | ok bs =>
    rw [hr] at hreads
    rw [hreads]
    exact ⟨bs, rfl, fromShelf_allBookmarks hreads⟩
  | error e =>
    rw [hr] at hreads
    rw [hreads]
    exact ⟨[], rfl, by simp⟩

/-- A look-up that may be left out gives bookmarks on the shelf. -/
theorem exists_of_run_unless {c : Bool} {t : Task α (List Bookmark)} (hreads : ReadsOnly t) (hshelf : FromShelf t)
    {k : List Bookmark → Task α β} {r : β} (h : (if c then pure [] >>= k else t >>= k).run w = (.ok r, w')) :
    ∃ bs, (∀ b ∈ bs, b ∈ w.store.shelf.bookmarks) ∧ (k bs).run w = (.ok r, w') := by
  cases c with
  | true => exact ⟨[], by simp, h⟩
  | false =>
    obtain ⟨bs, w₁, ht, hk⟩ := exists_of_run_bind h
    have hunchanged : w₁ = w := by
      have := hreads.unchanged w
      rw [ht] at this
      exact this
    subst hunchanged
    exact ⟨bs, hshelf ht, hk⟩

theorem isCandidates_fromStore {caps : Caps} (h : (candidatesFromStore target caps).run w = (.ok bs, w')) :
    IsCandidates w.store.shelf target bs := by
  obtain ⟨sameDomain, hd, h⟩ := exists_of_run_unless (reads_bookmarksOfDomain _ _) (fromShelf_bookmarksOfDomain _ _) h
  obtain ⟨sameCategory, hc, h⟩ :=
    exists_of_run_unless (reads_bookmarksOfCategory _ _) (fromShelf_bookmarksOfCategory _ _) h
  obtain ⟨pool, hp, h⟩ := exists_of_run_unless reads_allBookmarks fromShelf_allBookmarks h
  cases h
  exact isCandidates_select hd hc hp target caps

/-- **A bookmark that is found with its candidates has its id, and the candidates are on the shelf.** -/
theorem isCandidates_of_run (h : (targetAndCandidates id corpus).run w = (.ok (some (target, bs)), w'))
    (hc : ∀ cs ∈ corpus, ∀ b ∈ cs, b ∈ w.store.shelf.bookmarks) :
    w.store.shelf.get? id = some target ∧ IsCandidates w.store.shelf target bs := by
  unfold targetAndCandidates at h
  obtain ⟨found, w₁, hfound, h⟩ := exists_of_run_bind h
  have hget : found = w.store.shelf.get? id ∧ w₁ = w := by
    by_cases hw : w.Ready .getOne
    · rw [run_bookmarkWithId hw] at hfound
      cases hfound
      exact ⟨rfl, rfl⟩
    · obtain ⟨e, _, he⟩ := run_store_not_ready hw
      rw [bookmarkWithId, he] at hfound
      cases hfound
  obtain ⟨rfl, rfl⟩ := hget
  cases hget : w₁.store.shelf.get? id with
  | none =>
    rw [hget] at h
    cases h
  | some b =>
    rw [hget] at h
    simp only [Task.run_bind, Task.run_look, Task.follow_ok] at h
    cases corpus with
    | none =>
      obtain ⟨cs, w₂, hcs, h⟩ := exists_of_run_bind h
      cases h
      exact ⟨rfl, isCandidates_fromStore hcs⟩
    | some cs =>
      cases h
      exact ⟨rfl, isCandidates_among (hc cs rfl) _ _⟩

/-! ## Comparing -/

/-- The state in which the records of a bookmark were replaced, with the lock free. -/
def State.withRecords (w : State α) (id : String) (rs : List (Record α)) : State α :=
  { w with store := { w.store with records := w.store.records.replace id rs }, isLocked := false }

theorem sameLookups_withRecords (w : State α) (id : String) (rs : List (Record α)) :
    SameLookups w (w.withRecords id rs) := ⟨rfl, rfl, rfl, rfl⟩

/-- As many records as asked for. -/
def atMost (limit : Option Int) (rs : List (Record α)) : List (Record α) :=
  match limit with
  | some n => upTo n rs
  | none => rs

theorem atMost_subset (limit : Option Int) (rs : List (Record α)) : atMost limit rs ⊆ rs := by
  cases limit with
  | none => exact List.Subset.refl rs
  | some n => exact (upTo_sublist n rs).subset

section Comparing

variable [Scalar α]

/-- How a bookmark is compared: the answer and the state afterwards. -/
inductive Comparing (w : State α) (id : String) (topN : Option Int) (corpus : Option (List Bookmark)) :
    List (Record α) × State α → Prop
  /-- The bookmark is not there, or its candidates cannot be looked up. -/
  | unknown : Comparing w id topN corpus ([], w)
  /-- The records are stored. -/
  | stored {target : Bookmark} {bs : List Bookmark}
      (h : (targetAndCandidates id corpus).run w = (.ok (some (target, bs)), w)) (hs : w.Ready .storeSimilarities) :
      Comparing w id topN corpus (rankCandidates target bs (topN.getD w.settings.similarity.topN) w.now,
        w.withRecords target.id (rankCandidates target bs (topN.getD w.settings.similarity.topN) w.now))
  /-- The records cannot be stored. -/
  | lost {target : Bookmark} {bs : List Bookmark}
      (h : (targetAndCandidates id corpus).run w = (.ok (some (target, bs)), w)) (hs : ¬w.Ready .storeSimilarities) :
      Comparing w id topN corpus (rankCandidates target bs (topN.getD w.settings.similarity.topN) w.now, w.unlock)

/-- The records are about the bookmark, and were found out now. -/
theorem Comparing.mem {topN : Option Int} {rs : List (Record α)} {r : Record α}
    (h : Comparing w id topN none (rs, w')) (hr : r ∈ rs) : r.bookmarkId = id ∧ r.computedAt = w.now := by
  have hrank : ∀ {target bs n}, (targetAndCandidates id none).run w = (.ok (some (target, bs)), w) →
      r ∈ rankCandidates target bs n w.now → r.bookmarkId = id ∧ r.computedAt = w.now := by
    intro target bs n hfound hmem
    have hget := (isCandidates_of_run hfound (by simp)).1
    exact ⟨(bookmarkId_of_mem hmem).trans (Shelf.contains_of_get? hget).1, computedAt_of_mem hmem⟩
  cases h with
  | unknown => cases hr
  | stored hfound => exact hrank hfound hr
  | lost hfound => exact hrank hfound hr

theorem run_computeSimilar_of_found (h : (targetAndCandidates id corpus).run w = (.ok (some (target, bs)), w))
    (topN : Option Int) : (computeSimilar id topN corpus).run w =
      (.ok (rankCandidates target bs (topN.getD w.settings.similarity.topN) w.now),
        ((storeRecords target.id (rankCandidates target bs (topN.getD w.settings.similarity.topN) w.now)).run
          w.lock).2.unlock) := by
  simp only [computeSimilar, Task.run_bind, run_orElse, h, Task.follow_ok, Task.run_look, Task.run_locked,
    Task.run_pure]

theorem run_computeSimilar_stored (h : (targetAndCandidates id corpus).run w = (.ok (some (target, bs)), w))
    (hs : w.Ready .storeSimilarities) (topN : Option Int) : (computeSimilar id topN corpus).run w =
      (.ok (rankCandidates target bs (topN.getD w.settings.similarity.topN) w.now),
        w.withRecords target.id (rankCandidates target bs (topN.getD w.settings.similarity.topN) w.now)) := by
  have hlock : w.lock.Ready .storeSimilarities := hs
  rw [run_computeSimilar_of_found h, storeRecords, run_store hlock]
  rfl

/-- With one offset on the shelf and everything in order, the records of the candidates among all bookmarks are stored.
-/
theorem run_computeSimilar_among {offset : Int} (hf : Findable w) (ho : OneOffset w.store.shelf offset)
    (hcaps : w.CapsFit id) (hs : w.Ready .storeSimilarities) (hget : w.store.shelf.get? id = some target)
    (hbs : candidatesAmong target w.store.shelf.all w.settings.similarity.caps = bs) (topN : Option Int) :
    (computeSimilar id topN none).run w =
      (.ok (rankCandidates target bs (topN.getD w.settings.similarity.topN) w.now),
        w.withRecords target.id (rankCandidates target bs (topN.getD w.settings.similarity.topN) w.now)) := by
  refine run_computeSimilar_stored ?_ hs topN
  rw [run_targetAndCandidates hf ho hcaps, targetAmongAll, hget, Option.map_some, hbs]

theorem run_computeSimilar_lost (h : (targetAndCandidates id corpus).run w = (.ok (some (target, bs)), w))
    (hs : ¬w.Ready .storeSimilarities) (topN : Option Int) : (computeSimilar id topN corpus).run w =
      (.ok (rankCandidates target bs (topN.getD w.settings.similarity.topN) w.now), w.unlock) := by
  have hlock : ¬w.lock.Ready .storeSimilarities := hs
  obtain ⟨e, _, he⟩ := run_store_not_ready hlock
  rw [run_computeSimilar_of_found h, storeRecords, he]
  rfl

/-- **Comparing a bookmark always answers, in one of these ways.** -/
theorem comparing (w : State α) (id : String) (topN : Option Int) (corpus : Option (List Bookmark)) :
    ∃ rs w', (computeSimilar id topN corpus).run w = (.ok rs, w') ∧ Comparing w id topN corpus (rs, w') := by
  have hreads := (reads_targetAndCandidates id corpus).run w
  match hr : ((targetAndCandidates id corpus).run w).1 with
  | .error e =>
    rw [hr] at hreads
    exact ⟨[], w, by simp only [computeSimilar, Task.run_bind, run_orElse, hreads, Task.follow_ok, Task.run_pure],
      .unknown⟩
  | .ok none =>
    rw [hr] at hreads
    exact ⟨[], w, by simp only [computeSimilar, Task.run_bind, run_orElse, hreads, Task.follow_ok, Task.run_pure],
      .unknown⟩
  | .ok (some (target, bs)) =>
    rw [hr] at hreads
    by_cases hs : w.Ready .storeSimilarities
    · exact ⟨_, _, run_computeSimilar_stored hreads hs topN, .stored hreads hs⟩
    · exact ⟨_, _, run_computeSimilar_lost hreads hs topN, .lost hreads hs⟩

/-! ## Answering -/

theorem run_storedRecords (h : w.Ready .getSimilarities) (id : String) :
    (storedRecords id).run w = (w.store.records.of id w.now, w) := run_store h _

theorem storedRecords_unchanged (w : State α) (id : String) : ((storedRecords id).run w).2 = w := by
  by_cases h : w.Ready .getSimilarities
  · rw [run_storedRecords h]
  · obtain ⟨e, _, he⟩ := run_store_not_ready h
    rw [storedRecords, he]

/-- The stored records of a bookmark, none if they cannot be read. -/
def State.recalled (w : State α) (id : String) : List (Record α) :=
  match ((storedRecords id).run w).1 with
  | .ok rs => rs
  | .error _ => []

theorem recalled_of_run {rs : List (Record α)} (h : (storedRecords id).run w = (.ok rs, w)) : w.recalled id = rs := by
  rw [State.recalled, h]

theorem bookmarkId_of_mem_recalled {r : Record α} (h : r ∈ w.recalled id) : r.bookmarkId = id := by
  unfold State.recalled at h
  by_cases hw : w.Ready .getSimilarities
  · rw [run_storedRecords hw] at h
    cases hr : w.store.records.of id w.now with
    | ok rs =>
      rw [hr] at h
      exact RecordTable.bookmarkId_of_mem_of hr h
    | error e =>
      rw [hr] at h
      cases h
  · obtain ⟨e, _, he⟩ := run_store_not_ready hw
    rw [storedRecords, he] at h
    cases h

/-- Stored records are answered if there are any and all of them are young enough. -/
theorem run_freshRecords (w : State α) (id : String) : (freshRecords id).run w =
    (if (w.recalled id).isEmpty then .ok none
      else (microsOfSeconds w.settings.similarity.recordsLifetime).map fun micros =>
        if areFresh (w.recalled id) micros w.now then some (w.recalled id) else none, w) := by
  have hstored : (orElse (storedRecords id) []).run w = (.ok (w.recalled id), w) := by
    rw [run_orElse, storedRecords_unchanged, State.recalled]
    cases ((storedRecords id).run w).1 <;> rfl
  simp only [freshRecords, Task.run_bind, hstored, Task.follow_ok]
  split
  · rfl
  · simp only [Task.run_bind, Task.run_look, Task.follow_ok, Task.run_ofExcept]
    cases microsOfSeconds w.settings.similarity.recordsLifetime <;> rfl

theorem run_freshRecords_of_none (h : w.recalled id = []) : (freshRecords id : Task α _).run w = (.ok none, w) := by
  rw [run_freshRecords, h]
  rfl

/-- Nothing is recalled of a bookmark of which no record is stored. -/
theorem recalled_eq_nil (hg : w.Ready .getSimilarities) (h : ∀ r ∈ w.store.records.rows, r.bookmarkId ≠ id) :
    w.recalled id = [] := by
  refine recalled_of_run ?_
  rw [run_storedRecords hg, RecordTable.of_eq_nil h]

theorem run_similarTo_recalled {micros : Int} (hne : w.recalled id ≠ [])
    (hm : microsOfSeconds w.settings.similarity.recordsLifetime = .ok micros)
    (hf : areFresh (w.recalled id) micros w.now = true) (limit : Option Int) :
    (similarTo id limit).run w = (.ok (atMost limit (w.recalled id)), w) := by
  have hempty : (w.recalled id).isEmpty = false := by simpa using hne
  simp only [similarTo, Task.run_bind, run_freshRecords, hempty, hm, hf, Bool.false_eq_true, if_false, Except.map,
    if_true, Task.follow_ok]
  rfl

theorem run_similarTo_computed {rs : List (Record α)} (h : (freshRecords id : Task α _).run w = (.ok none, w))
    (hc : (computeSimilar id none none).run w = (.ok rs, w')) (limit : Option Int) :
    (similarTo id limit).run w = (.ok (atMost limit rs), w') := by
  simp only [similarTo, Task.run_bind, h, Task.follow_ok, hc]
  rfl

/-- How the records of a bookmark are answered: the answer and the state afterwards. -/
inductive Answering (w : State α) (id : String) (limit : Option Int) :
    Except Fault (List (Record α)) × State α → Prop
  /-- The stored records are young enough. -/
  | recalled {micros : Int} (hm : microsOfSeconds w.settings.similarity.recordsLifetime = .ok micros)
      (hf : areFresh (w.recalled id) micros w.now = true) :
      Answering w id limit (.ok (atMost limit (w.recalled id)), w)
  /-- The records are computed anew. -/
  | computed {rs : List (Record α)} {w' : State α} (hc : (computeSimilar id none none).run w = (.ok rs, w')) :
      Answering w id limit (.ok (atMost limit rs), w')
  /-- How long records are used is no span of time. -/
  | undecided {e : Fault} (hm : microsOfSeconds w.settings.similarity.recordsLifetime = .error e) :
      Answering w id limit (.error e, w)

theorem answering (w : State α) (id : String) (limit : Option Int) :
    Answering w id limit ((similarTo id limit).run w) := by
  obtain ⟨rs, w', hc, _⟩ := comparing w id none none
  have hrun := run_freshRecords w id
  by_cases hne : w.recalled id = []
  · rw [hne] at hrun
    rw [run_similarTo_computed hrun hc]
    exact .computed hc
  · have hempty : (w.recalled id).isEmpty = false := by simpa using hne
    rw [hempty, if_neg Bool.false_ne_true] at hrun
    cases hm : microsOfSeconds w.settings.similarity.recordsLifetime with
    | error e =>
      have hfails : (similarTo id limit).run w = (.error e, w) := by
        rw [similarTo, Task.run_bind, hrun, hm]
        rfl
      rw [hfails]
      exact .undecided hm
    | ok micros =>
      cases hf : areFresh (w.recalled id) micros w.now with
      | true =>
        rw [run_similarTo_recalled hne hm hf]
        exact .recalled hm hf
      | false =>
        rw [hm] at hrun
        simp only [Except.map, hf, Bool.false_eq_true, if_false] at hrun
        rw [run_similarTo_computed hrun hc]
        exact .computed hc

/-- An answered record is about the bookmark, and is young enough or was found out right now. -/
theorem mem_of_run_similarTo {limit : Option Int} {rs : List (Record α)} {r : Record α}
    (h : (similarTo id limit).run w = (.ok rs, w')) (hr : r ∈ rs) : r.bookmarkId = id ∧
      (r.computedAt = w.now ∨ ∃ micros, microsOfSeconds w.settings.similarity.recordsLifetime = .ok micros ∧
        w.now.instant - r.computedAt.instant < micros) := by
  have ha := answering w id limit
  rw [h] at ha
  cases ha with
  | recalled hm hf =>
    have hmem := atMost_subset limit _ hr
    exact ⟨bookmarkId_of_mem_recalled hmem, Or.inr ⟨_, hm, of_decide_eq_true (List.all_eq_true.mp hf r hmem)⟩⟩
  | computed hc =>
    obtain ⟨rs', w'', hrun, hcomparing⟩ := comparing w id none none
    rw [hc] at hrun
    cases hrun
    obtain ⟨hid, hnow⟩ := hcomparing.mem (atMost_subset limit _ hr)
    exact ⟨hid, Or.inl hnow⟩

end Comparing

end Shelfmark.Engine
