import Shelfmark.Proofs.Engine.Comparisons

/-!
# Records that are read again

Records that were computed and stored are read as they were found, but for those with equal scores: the store gives
these in the order of their related ids, whatever the order was in which the candidates were found.  So as long as the
records are fresh the engine answers with the same records as when it computed them, in the order of reading
(`recalls_computed`); and the two orders do differ (`recalls_reversed`).
-/

namespace Shelfmark.Engine

open Similarity Scalar RecordTable

variable {α : Type} [Scalar α] {w w' w'' : State α} {id : String} {target : Bookmark} {bs : List Bookmark}
  {rs : List (Record α)} {micros : Int}

/-! ## Recalling -/

/-- No bookmark or record was written in between. -/
structure Unwritten (w w' : State α) : Prop extends SameLookups w w' where
  records : w'.store.records = w.store.records

/-- Fresh records that replaced those of a bookmark are answered, in the order of reading. -/
theorem run_similarTo_replaced (hstored : (storedRecords id).run w = (.ok (inReadOrder rs), w)) (hne : rs ≠ [])
    (hm : microsOfSeconds w.settings.similarity.recordsLifetime = .ok micros)
    (hage : ∀ r ∈ rs, w.now.instant - r.computedAt.instant < micros) (n : Int) :
    (similarTo id (some n)).run w = (.ok (upTo n (inReadOrder rs)), w) := by
  have hne' : inReadOrder rs ≠ [] := fun h => hne (inReadOrder_eq_nil.mp h)
  have hfresh : areFresh (inReadOrder rs) micros w.now = true := by
    refine List.all_eq_true.mpr fun r hr => decide_eq_true ?_
    exact hage r ((inReadOrder_perm rs).mem_iff.mp hr)
  rw [← recalled_of_run hstored] at hne' hfresh
  rw [run_similarTo_recalled hne' hm hfresh, recalled_of_run hstored]
  rfl

/-- **What was computed and stored is read again, records with equal scores in the order of their related ids.**  While
nothing is written and the records are young enough, the engine answers with the first of them; it answered with the
first of the computed ones when it computed them.  The two lists have the same members, and are equal exactly if records
with equal scores were found in the order of their related ids. -/
theorem recalls_computed [IsOrdered α] (h : ((targetAndCandidates id none).run w).1 = .ok (some (target, bs)))
    (hs : w.Ready .storeSimilarities) (hg : w.Ready .getSimilarities) :
    ∃ (rs : List (Record α)) (w' : State α), (computeSimilar id none none).run w = (.ok rs, w') ∧
      ((freshRecords id : Task α _).run w = (.ok none, w) → ∀ n : Int, 0 ≤ n →
        (similarTo id (some n)).run w = (.ok (rs.take n.toNat), w')) ∧
      (∀ w'', Unwritten w' w'' → (storedRecords id).run w'' = (.ok (inReadOrder rs), w'') ∧
        ∀ micros, microsOfSeconds w.settings.similarity.recordsLifetime = .ok micros →
          w''.now.instant - w.now.instant < micros → ∀ n : Int, 0 ≤ n →
          ∃ w₁, (similarTo id (some n)).run w'' = (.ok ((inReadOrder rs).take n.toNat), w₁) ∧ Unwritten w' w₁) ∧
      (inReadOrder rs).Perm rs ∧
      ((∀ b ∈ bs, IsNumber (score target b : α)) → (inReadOrder rs = rs ↔
        rs.Pairwise fun a b => le a.score b.score = true → a.relatedId ≤ b.relatedId)) := by
  have hfound : (targetAndCandidates id none).run w = (.ok (some (target, bs)), w) := by
    rw [(reads_targetAndCandidates id none).run w, h]
  obtain ⟨hget, hbs⟩ := isCandidates_of_run hfound (by simp)
  obtain rfl : target.id = id := (Shelf.contains_of_get? hget).1
  obtain ⟨rs, hrs⟩ : ∃ rs, rankCandidates target bs (w.settings.similarity.topN) w.now = (rs : List (Record α)) :=
    ⟨_, rfl⟩
  have hids : ∀ r ∈ rs, r.bookmarkId = target.id := fun r hr => bookmarkId_of_mem (hrs ▸ hr)
  have hdistinct : (rs.map (·.relatedId)).Nodup := hrs ▸ nodup_relatedIds hbs.distinct
  have hcompute : (computeSimilar target.id none none).run w = (.ok rs, w.withRecords target.id rs) :=
    hrs ▸ run_computeSimilar_stored hfound hs none
  refine ⟨rs, _, hcompute, fun hnone n hn => ?_, fun w'' hw => ?_, inReadOrder_perm rs, fun hnumbers => ?_⟩
  · rw [run_similarTo_computed hnone hcompute, ← upTo_of_nonneg hn]
    rfl
  · have hlookups : SameLookups w w'' := (sameLookups_withRecords w target.id rs).trans hw.toSameLookups
    have hstored : (storedRecords target.id).run w'' = (.ok (inReadOrder rs), w'') := by
      rw [run_storedRecords (hlookups.ready hg), hw.records]
      exact congrArg (·, w'') (of_replace w.store.records hids hdistinct w''.now)
    refine ⟨hstored, fun micros hm hage n hn => ?_⟩
    rw [← upTo_of_nonneg hn]
    by_cases hne : rs = []
    · -- nothing was stored, so the records are computed anew: there are still none
      subst hne
      have hfound' : (targetAndCandidates target.id none).run w'' = (.ok (some (target, bs)), w'') := by
        have hreads : ReadsOnly (targetAndCandidates target.id none : Task α _) := reads_targetAndCandidates _ _
        rw [hreads.run w'', hreads.same hlookups, h]
      have hempty : (rankCandidates target bs w''.settings.similarity.topN w''.now : List (Record α)) = [] := by
        rw [hlookups.settings]
        exact rankCandidates_eq_nil_congr _ hrs
      have hcompute' : (computeSimilar target.id none none).run w'' = (.ok [], w''.withRecords target.id []) :=
        hempty ▸ run_computeSimilar_stored hfound' (hlookups.ready hs) none
      refine ⟨_, ?_, hw.toSameLookups.trans (sameLookups_withRecords w'' target.id []), ?_⟩
      · rw [inReadOrder_eq_nil.mpr rfl] at hstored ⊢
        exact run_similarTo_computed (run_freshRecords_of_none (recalled_of_run hstored)) hcompute' (some n)
      · show w''.store.records.replace target.id [] = _
        rw [hw.records]
        exact replace_nil_twice w.store.records target.id
    · rw [← hlookups.settings] at hm
      refine ⟨w'', run_similarTo_replaced hstored hne hm (fun r hr => ?_) n, hw⟩
      rw [computedAt_of_mem (hrs ▸ hr)]
      exact hage
  · refine inReadOrder_eq_iff (fun r hr => ?_) (hrs ▸ sorted_rankCandidates hnumbers)
    obtain ⟨b, hb, rfl, _⟩ := exists_of_mem_rankCandidates (hrs ▸ hr)
    exact hnumbers b hb

/-- An hour after the records of a bookmark were computed they are read again. -/
theorem recalls_computed_sample :
    let t : Bookmark := { id := "t", title := "Lean", domain := "x.org" }
    let a : Bookmark := { id := "a", title := "Lean", domain := "x.org" }
    let w : State Float :=
      { store := { shelf := (({} : Shelf).put t).put a },
        settings := { similarity := { recordsLifetime := .int 86400 } } }
    let bs := candidatesAmong t w.store.shelf.all w.settings.similarity.caps
    let later : Timestamp := { Timestamp.epoch with clock := 3600000000, clock_lt := by decide }
    ((targetAndCandidates "t" none).run w).1 = .ok (some (t, bs)) ∧ w.Ready .storeSimilarities ∧
      w.Ready .getSimilarities ∧ ∃ rs w', (computeSimilar "t" none none).run w = (.ok rs, w') ∧
        (storedRecords "t").run { w' with now := later } = (.ok (inReadOrder rs), { w' with now := later }) ∧
        ∃ w₁, (similarTo "t" (some 3)).run { w' with now := later } = (.ok ((inReadOrder rs).take 3), w₁) ∧
          Unwritten w' w₁ := by
  intro t a w bs later
  have hfindable : Findable w := ⟨⟨rfl, rfl⟩, ⟨rfl, rfl⟩, ⟨rfl, rfl⟩, ⟨rfl, rfl⟩⟩
  have ho : OneOffset w.store.shelf 0 := by decide +kernel
  have hfound : ((targetAndCandidates "t" none).run w).1 = .ok (some (t, bs)) := by
    rw [run_targetAndCandidates hfindable ho fun _ _ => capsFit_default _]
    rfl
  obtain ⟨rs, w', hcompute, _, hread, _⟩ := recalls_computed hfound ⟨rfl, rfl⟩ ⟨rfl, rfl⟩
  obtain ⟨hstored, hsimilar⟩ := hread { w' with now := later } ⟨⟨rfl, rfl, rfl, rfl⟩, rfl⟩
  have hage : later.instant - w.now.instant < 86400000000 := by decide
  obtain ⟨w₁, hrun, hunwritten⟩ := hsimilar 86400000000 rfl hage 3 (by decide)
  exact ⟨hfound, ⟨rfl, rfl⟩, ⟨rfl, rfl⟩, rs, w', hcompute, hstored, w₁, hrun, hunwritten⟩

/-- Of two records with equal scores the one with the lesser related id is read first. -/
theorem inReadOrder_pair {r r' : Record α} (h : readBefore r r' = false) : inReadOrder [r, r'] = [r', r] := by
  simp [inReadOrder, List.mergeSort, h]

/-- **Two bookmarks as alike, the newer one with the greater id: their records are found in one order and read in the
other one**, and the first answer is not given again. -/
theorem recalls_reversed :
    let time (clock : Nat) (h : clock < microsPerDay) : Timestamp := { Timestamp.epoch with clock, clock_lt := h }
    let t : Bookmark := { id := "t", title := "Lean", domain := "x.org", dateAdded := time 2 (by decide) }
    let b : Bookmark := { id := "b", title := "Lean", domain := "x.org", dateAdded := time 1 (by decide) }
    let a : Bookmark := { id := "a", title := "Lean", domain := "x.org", dateAdded := time 0 (by decide) }
    let w : State Float :=
      { store := { shelf := ((({} : Shelf).put t).put b).put a },
        settings := { similarity := { recordsLifetime := .int 86400 } } }
    ∃ (r r' : Record Float) (w' : State Float), r.relatedId = "b" ∧ r'.relatedId = "a" ∧
      (computeSimilar "t" none none).run w = (.ok [r, r'], w') ∧ (storedRecords "t").run w' = (.ok [r', r], w') ∧
      (similarTo "t" (some 1)).run w = (.ok [r], w') ∧ (similarTo "t" (some 1)).run w' = (.ok [r'], w') := by
  intro time t b a w
  have hfindable : Findable w := ⟨⟨rfl, rfl⟩, ⟨rfl, rfl⟩, ⟨rfl, rfl⟩, ⟨rfl, rfl⟩⟩
  have ho : OneOffset w.store.shelf 0 := by decide +kernel
  have hall : w.store.shelf.all = [t, b, a] := Shelf.all_of_pairwise (by decide +kernel)
  have hcandidates : candidatesAmong t w.store.shelf.all w.settings.similarity.caps = [b, a] := by
    have hnewest := newestFirst_all ho
    rw [hall] at hnewest ⊢
    exact candidatesAmong_of_domain hnewest (by decide) (by simp [t, b, a]) _
  have hrecords : rankCandidates t [b, a] 10 w.now =
      [(recordOf t w.now b : Record Float), recordOf t w.now a] :=
    rankCandidates_of_pairwise (by decide +kernel) (by decide +kernel) (by decide) _
  obtain ⟨r, hr⟩ : ∃ r : Record Float, recordOf t w.now b = r := ⟨_, rfl⟩
  obtain ⟨r', hr'⟩ : ∃ r' : Record Float, recordOf t w.now a = r' := ⟨_, rfl⟩
  rw [hr, hr'] at hrecords
  have hcompute : (computeSimilar "t" none none).run w = (.ok [r, r'], w.withRecords "t" [r, r']) := by
    rw [← hrecords]
    exact run_computeSimilar_among hfindable ho (fun _ _ => capsFit_default _) ⟨rfl, rfl⟩ rfl hcandidates none
  have hread : inReadOrder [r, r'] = [r', r] := by
    refine inReadOrder_pair ?_
    rw [← hr, ← hr']
    decide +kernel
  have hstored : (storedRecords "t").run (w.withRecords "t" [r, r']) =
      (.ok (inReadOrder [r, r']), w.withRecords "t" [r, r']) := by
    rw [run_storedRecords ⟨rfl, rfl⟩]
    refine congrArg (·, _) (of_replace {} ?_ ?_ w.now)
    · simp [← hr, ← hr', recordOf, t]
    · simp [← hr, ← hr', recordOf, a, b]
  have hnone : w.recalled "t" = [] := recalled_eq_nil ⟨rfl, rfl⟩ (by simp [w])
  have hage : ∀ q ∈ [r, r'], w.now.instant - q.computedAt.instant < 86400000000 := by
    simp [← hr, ← hr', recordOf]
  have hfirst := run_similarTo_computed (run_freshRecords_of_none hnone) hcompute (some 1)
  have hsecond := run_similarTo_replaced hstored (by simp) rfl hage 1
  rw [hread] at hstored hsecond
  exact ⟨r, r', _, hr ▸ rfl, hr' ▸ rfl, hcompute, hstored, hfirst, hsecond⟩

end Shelfmark.Engine
