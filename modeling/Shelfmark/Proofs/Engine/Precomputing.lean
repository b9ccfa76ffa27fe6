import Shelfmark.Proofs.Engine.Comparisons

/-!
# Comparing all bookmarks

- A comparison writes the records of its own bookmark and no others, and reads nothing that a comparison writes.  So
  while some bookmarks are compared one after the other, each of them gets the records that it gets when it is compared
  alone (`own_compareAll`), and the order of the comparisons does not matter;
- the progress is reported after every tenth bookmark and after the last one (`mem_progress`, `pairwise_progress`).

Together these say what is left of comparing all bookmarks with more to them than their address
(`precompute_compares_all`).
-/

namespace Shelfmark.Engine

open Similarity

variable {α : Type} {w : State α} {b : Bookmark} {corpus cs : List Bookmark}

/-! ## Progress -/

/-- What is reported while some bookmarks are worked off, `completed` of `total` being done before. -/
def progress (total completed count : Nat) : List (Nat × Nat) :=
  ((List.range' (completed + 1) count).filter fun k => isReported k total).map fun k => (k, total)

theorem progress_succ (total completed count : Nat) : progress total completed (count + 1) =
    if isReported (completed + 1) total then (completed + 1, total) :: progress total (completed + 1) count
    else progress total (completed + 1) count := by
  rw [progress, List.range'_succ, List.filter_cons]
  split <;> rfl

theorem isReported_iff {k total : Nat} : isReported k total = true ↔ 10 ∣ k ∨ k = total := by
  simp [isReported, Nat.dvd_iff_mod_eq_zero]

/-- **Every tenth bookmark is reported, and the last one.** -/
theorem mem_progress {total k n : Nat} :
    (k, n) ∈ progress total 0 total ↔ n = total ∧ 0 < k ∧ k ≤ n ∧ (10 ∣ k ∨ k = n) := by
  simp only [progress, List.mem_map, List.mem_filter, List.mem_range'_1, isReported_iff, Prod.mk.injEq]
  constructor
  · rintro ⟨_, ⟨hk, hreported⟩, rfl, rfl⟩
    exact ⟨rfl, by omega, by omega, hreported⟩
  · rintro ⟨rfl, hpos, hle, hreported⟩
    exact ⟨k, ⟨by omega, hreported⟩, rfl, rfl⟩

/-- **Progress goes up.** -/
theorem pairwise_progress (total completed count : Nat) :
    (progress total completed count).Pairwise fun p q => p.1 < q.1 :=
  List.pairwise_map.mpr ((List.pairwise_lt_range' (s := completed + 1) (n := count)).filter _)

example : progress 25 0 25 = [(10, 25), (20, 25), (25, 25)] := by decide

/-! ## One comparison -/

section Comparing

variable [Scalar α]

/-- The records of a bookmark with its candidates among given bookmarks. -/
def recordsAmong (w : State α) (corpus : List Bookmark) (b : Bookmark) : List (Record α) :=
  rankCandidates b (candidatesAmong b corpus w.settings.similarity.caps) w.settings.similarity.topN w.now

theorem nodup_recordsAmong (w : State α) (corpus : List Bookmark) (b : Bookmark) :
    ((recordsAmong w corpus b).map (·.relatedId)).Nodup :=
  nodup_relatedIds (nodup_ids_select _ _ _ _ _)

/-- What a comparison writes it does not read. -/
theorem recordsAmong_withRecords (w : State α) (id : String) (rs : List (Record α)) :
    recordsAmong (w.withRecords id rs) corpus b = recordsAmong w corpus b := rfl

/-- **Where nothing is out of order a kept bookmark is compared, and its records are stored.** -/
theorem run_computeSimilar_kept (hone : w.Ready .getOne) (hstore : w.Ready .storeSimilarities)
    (hb : w.store.shelf.get? b.id = some b) : (computeSimilar b.id none (some corpus)).run w =
      (.ok (recordsAmong w corpus b), w.withRecords b.id (recordsAmong w corpus b)) := by
  refine run_computeSimilar_stored ?_ hstore none
  simp only [targetAndCandidates, Task.run_bind, run_bookmarkWithId hone, Task.follow_ok, hb, Task.run_look,
    Task.run_pure]

end Comparing

/-! ## One comparison after the other -/

section Comparisons

variable [Scalar α]

/-- The state in which some bookmarks were compared one after the other. -/
def compareAll (corpus : List Bookmark) : State α → List Bookmark → State α
  | w, [] => w
  | w, b :: rest => compareAll corpus (w.withRecords b.id (recordsAmong w corpus b)) rest

/-- **Kept bookmarks are compared one after the other, and the progress is reported.** -/
theorem run_precomputeFrom (total : Nat) : ∀ {cs : List Bookmark} (completed : Nat) {w : State α},
    w.Ready .getOne → w.Ready .storeSimilarities → (∀ b ∈ cs, w.store.shelf.get? b.id = some b) →
    (precomputeFrom corpus total completed cs).run w =
      (.ok (progress total completed cs.length), compareAll corpus w cs)
  | [], _, _, _, _, _ => rfl
  | b :: rest, completed, w, hone, hstore, hkept => by
    obtain ⟨hb, hrest⟩ := List.forall_mem_cons.mp hkept
    have hsame := sameLookups_withRecords w b.id (recordsAmong w corpus b)
    have hkept' : ∀ c ∈ rest, (w.withRecords b.id (recordsAmong w corpus b)).store.shelf.get? c.id = some c := hrest
    rw [precomputeFrom, Task.run_bind, run_computeSimilar_kept hone hstore hb, Task.follow_ok, Task.run_bind,
      run_precomputeFrom total (completed + 1) (hsame.ready hone) (hsame.ready hstore) hkept', Task.follow_ok,
      Task.run_pure, List.length_cons, progress_succ]
    rfl

/-- Comparisons change nothing but the stored records and the lock. -/
theorem compareAll_eq : ∀ {cs : List Bookmark} {w : State α}, compareAll corpus w cs =
    { w with
      store := { w.store with records := (compareAll corpus w cs).store.records }
      isLocked := (compareAll corpus w cs).isLocked }
  | [], _ => rfl
  | b :: rest, w => by
    rw [compareAll, compareAll_eq]
    rfl

/-- The records of a bookmark that is not compared stay. -/
theorem own_compareAll_of_notMem {id : String} : ∀ {cs : List Bookmark} {w : State α}, id ∉ cs.map (·.id) →
    (compareAll corpus w cs).store.records.own id = w.store.records.own id
  | [], _, _ => rfl
  | b :: rest, w, h => by
    obtain ⟨hb, hrest⟩ := not_or.mp fun hmem => h (List.mem_cons.mpr hmem)
    rw [compareAll, own_compareAll_of_notMem hrest]
    exact RecordTable.own_replace_of_ne _ hb (nodup_recordsAmong w corpus b)

/-- **Each bookmark has the records that it gets when it is compared alone**, whatever comes before and after it. -/
theorem own_compareAll {cs : List Bookmark} {w : State α} (hids : (cs.map (·.id)).Nodup) (hb : b ∈ cs) :
    (compareAll corpus w cs).store.records.own b.id = (recordsAmong w corpus b).map (StoredRecord.of b.id) := by
  induction cs generalizing w with
  | nil => cases hb
  | cons c rest ih =>
    obtain ⟨hc, hrest⟩ := List.nodup_cons.mp hids
    rw [compareAll]
    rcases List.mem_cons.mp hb with rfl | hb
    · rw [own_compareAll_of_notMem hc]
      exact RecordTable.own_replace_self _ _ (nodup_recordsAmong w corpus b)
    · rw [ih hrest hb, recordsAmong_withRecords]

end Comparisons

/-! ## All bookmarks -/

section All

variable [Scalar α] {w' w'' : State α}

/-- Some bookmarks were compared: each of them has the records that comparing it alone stores, the records of all others
are what they were, and nothing else has changed but the lock. -/
structure AllCompared (corpus cs : List Bookmark) (w w' : State α) : Prop where
  alone : ∀ b ∈ cs, ∃ rs w₁, (computeSimilar b.id none (some corpus)).run w = (.ok rs, w₁) ∧
    w₁.store.records.own b.id = rs.map (StoredRecord.of b.id) ∧
    w'.store.records.own b.id = w₁.store.records.own b.id
  others : ∀ id, id ∉ cs.map (·.id) → w'.store.records.own id = w.store.records.own id
  rest : w' = { w with store := { w.store with records := w'.store.records }, isLocked := w'.isLocked }

/-- What bookmarks were compared says which records are stored of each bookmark. -/
theorem AllCompared.own_eq (h : AllCompared corpus cs w w') (h' : AllCompared corpus cs w w'') (id : String) :
    w'.store.records.own id = w''.store.records.own id := by
  by_cases hid : id ∈ cs.map (·.id)
  · obtain ⟨b, hb, rfl⟩ := List.mem_map.mp hid
    obtain ⟨rs, w₁, hrun, _, hown⟩ := h.alone b hb
    obtain ⟨rs', w₁', hrun', _, hown'⟩ := h'.alone b hb
    rw [hrun] at hrun'
    cases hrun'
    rw [hown, hown']
  · rw [h.others id hid, h'.others id hid]

/-- In whatever order kept bookmarks are compared, all of them were compared afterwards. -/
theorem allCompared_of_perm (hone : w.Ready .getOne) (hstore : w.Ready .storeSimilarities)
    (hids : (cs.map (·.id)).Nodup) (hkept : ∀ b ∈ cs, w.store.shelf.get? b.id = some b) {visited : List Bookmark}
    (hv : visited.Perm cs) : AllCompared corpus cs w (compareAll corpus w visited) where
  alone b hb := by
    refine ⟨_, _, run_computeSimilar_kept hone hstore (hkept b hb),
      RecordTable.own_replace_self _ _ (nodup_recordsAmong w corpus b), ?_⟩
    rw [own_compareAll ((hv.map _).nodup_iff.mpr hids) (hv.mem_iff.mpr hb)]
    exact (RecordTable.own_replace_self _ _ (nodup_recordsAmong w corpus b)).symm
  others id hid := own_compareAll_of_notMem fun h => hid ((hv.map _).mem_iff.mp h)
  rest := compareAll_eq

/-- **All bookmarks with more to them than their address are compared.**  Where the store is in order each of them has
afterwards the records that comparing it alone with the list of the store stores, in whatever order they are visited,
and the records of all others are untouched.  Their number is answered, and how many are done is reported at every tenth
of them and, once, at the last one; nothing is reported if there are none. -/
theorem precompute_compares_all (hall : w.Ready .getAll) (hone : w.Ready .getOne)
    (hstore : w.Ready .storeSimilarities) :
    let corpus := w.store.shelf.all
    let enriched := corpus.filter (·.isEnriched)
    ∃ reports w', precompute.run w = (.ok (enriched.length, reports), w') ∧ AllCompared corpus enriched w w' ∧
      (∀ visited : List Bookmark, visited.Perm enriched →
        ∃ w'', (precomputeFrom corpus enriched.length 0 visited).run w = (.ok reports, w'') ∧
          AllCompared corpus enriched w w'' ∧ ∀ id, w''.store.records.own id = w'.store.records.own id) ∧
      (∀ k n, (k, n) ∈ reports ↔ n = enriched.length ∧ 0 < k ∧ k ≤ n ∧ (10 ∣ k ∨ k = n)) ∧
      reports.Pairwise fun p q => p.1 < q.1 := by
  intro corpus enriched
  have hids : (enriched.map (·.id)).Nodup := w.store.shelf.nodup_all_ids.sublist (List.filter_sublist.map _)
  have hkept : ∀ b ∈ enriched, w.store.shelf.get? b.id = some b := fun b hb =>
    Shelf.get?_eq_some_iff.mpr ⟨Shelf.mem_all.mp (List.mem_filter.mp hb).1, rfl⟩
  have hvisit : ∀ visited : List Bookmark, visited.Perm enriched →
      (precomputeFrom corpus enriched.length 0 visited).run w =
        (.ok (progress enriched.length 0 enriched.length), compareAll corpus w visited) := by
    intro visited hv
    rw [run_precomputeFrom _ 0 hone hstore fun b hb => hkept b (hv.mem_iff.mp hb), hv.length_eq]
  have hcompared : ∀ visited : List Bookmark, visited.Perm enriched →
      AllCompared corpus enriched w (compareAll corpus w visited) := fun visited hv =>
    allCompared_of_perm hone hstore hids hkept hv
  refine ⟨_, _, ?_, hcompared enriched (.refl _), fun visited hv => ?_, fun k n => mem_progress,
    pairwise_progress _ _ _⟩
  · rw [precompute, Task.run_bind, run_orElse, run_allBookmarks hall, Task.follow_ok, Task.run_bind,
      hvisit enriched (.refl _), Task.follow_ok, Task.run_pure]
  · exact ⟨_, hvisit visited hv, hcompared visited hv,
      fun id => (hcompared visited hv).own_eq (hcompared enriched (.refl _)) id⟩

end All

/-- Two bookmarks with descriptions are compared, in either order, and the record of a bare one stays. -/
theorem precompute_compares_all_sample :
    let a : Bookmark := { id := "a", title := "Lean", description := "Proofs", domain := "x.org" }
    let b : Bookmark := { id := "b", title := "Lean", description := "Proofs", domain := "x.org" }
    let c : Bookmark := { id := "c", title := "Lean" }
    let kept : Record Float := recordOf c Timestamp.epoch a
    let w : State Float :=
      { store := { shelf := ((({} : Shelf).put a).put b).put c, records := RecordTable.replace {} "c" [kept] } }
    w.Ready .getAll ∧ w.Ready .getOne ∧ w.Ready .storeSimilarities ∧
      w.store.shelf.all.filter (·.isEnriched) = [a, b] ∧
      ∃ reports w', precompute.run w = (.ok (2, reports), w') ∧ (∀ p, p ∈ reports ↔ p = (2, 2)) ∧
        w'.store.records.own "a" = [StoredRecord.of "a" (recordOf a w.now b)] ∧
        w'.store.records.own "c" = [StoredRecord.of "c" kept] ∧
        ∃ w'', (precomputeFrom [a, b, c] 2 0 [b, a]).run w = (.ok reports, w'') ∧
          ∀ id, w''.store.records.own id = w'.store.records.own id := by
  intro a b c kept w
  have hready : ∀ op, w.Ready op := fun op => ⟨rfl, rfl⟩
  have hall : w.store.shelf.all = [a, b, c] := Shelf.all_of_pairwise (by decide +kernel)
  have henriched : w.store.shelf.all.filter (·.isEnriched) = [a, b] := by
    rw [hall]
    rfl
  have hcandidates : candidatesAmong a [a, b, c] w.settings.similarity.caps = [b] := by
    have hnewest : newestFirst [a, b, c] = [a, b, c] := List.mergeSort_of_pairwise (by decide +kernel)
    have hother : ¬Text.lower "" = Text.lower "x.org" := by decide +kernel
    have hdomain : [a, b, c].filter (fun d => !a.domain.isEmpty && Text.lower d.domain == Text.lower a.domain) =
        [a, b] := by simp [a, b, c, hother]
    simp only [candidatesAmong, hnewest, hdomain]
    rfl
  have hrecords : recordsAmong w [a, b, c] a = [recordOf a w.now b] := by
    rw [recordsAmong, hcandidates]
    exact rankCandidates_of_pairwise (by decide +kernel) (List.pairwise_singleton _ _) (by decide) _
  obtain ⟨reports, w', hrun, hcompared, hvisit, hreports, _⟩ :=
    precompute_compares_all (hready .getAll) (hready .getOne) (hready .storeSimilarities)
  rw [henriched] at hrun hcompared hvisit hreports
  rw [hall] at hcompared hvisit
  obtain ⟨w'', hrun'', _, hown⟩ := hvisit [b, a] (.swap a b [])
  obtain ⟨rs, w₁, hrun₁, hrs, halone⟩ := hcompared.alone a (by simp)
  have hget : w.store.shelf.get? a.id = some a := by rfl
  rw [run_computeSimilar_kept (hready .getOne) (hready .storeSimilarities) hget, hrecords] at hrun₁
  cases hrun₁
  refine ⟨hready _, hready _, hready _, henriched, reports, w', hrun, fun p => ?_, halone.trans hrs, ?_, w'', hrun'',
    hown⟩
  · rw [hreports p.1 p.2, Prod.ext_iff, List.length_cons, List.length_singleton]
    omega
  · rw [hcompared.others "c" (by simp [a, b])]
    rfl

end Shelfmark.Engine
