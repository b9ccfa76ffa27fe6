import Mathlib.Algebra.Order.Ring.Rat
import Mathlib.Algebra.Field.Rat
import Shelfmark.Proofs.Engine.Comparisons
import Shelfmark.Proofs.Engine.Quiet
import Shelfmark.Proofs.Similarity.Score

/-!
# Sound records

Records are sound (`SoundRecords`) if each is about two different bookmarks that are on the shelf, with a score above a
tenth and not above one, and no two of them are about the same bookmarks.

Keeping bookmarks, deleting a bookmark with the records that name it, and replacing the records of a bookmark by those
of its best candidates keep records sound.  So they stay sound while bookmarks are kept, deleted and compared, the store
fails and recovers, and time passes (`Compared.sound`).  The records that are answered are those of the bookmark, and
each is young enough or was found out right now (`records_sound`).
-/

namespace Shelfmark.Engine

open Similarity

variable {K : Type} [Field K] [LinearOrder K] {s s' : Shelf} {t : RecordTable K}
  {target : Bookmark} {bs : List Bookmark} {id : String} {w w₀ w' : State K}

/-- Each record is about two different bookmarks on the shelf, with a score above a tenth and one at most, and no two
are about the same bookmarks. -/
structure SoundRecords (s : Shelf) (t : RecordTable K) : Prop where
  different : ∀ r ∈ t.rows, r.bookmarkId ≠ r.relatedId
  known : ∀ r ∈ t.rows, s.contains r.bookmarkId = true ∧ s.contains r.relatedId = true
  score : ∀ r ∈ t.rows, 1 / 10 < r.score ∧ r.score ≤ 1
  once : (t.rows.map StoredRecord.pair).Nodup

namespace SoundRecords

/-! ## Changes of shelf and records -/

theorem of_contains (h : SoundRecords s t) (hs : ∀ id, s.contains id = true → s'.contains id = true) :
    SoundRecords s' t :=
  ⟨h.different, fun r hr => ⟨hs _ (h.known r hr).1, hs _ (h.known r hr).2⟩, h.score, h.once⟩

/-- Records are removed together with a bookmark that they name. -/
theorem delete (h : SoundRecords s t) (id : String) : SoundRecords (s.remove id) (t.forget id) := by
  refine ⟨fun r hr => ?_, fun r hr => ?_, fun r hr => ?_, h.once.sublist (List.filter_sublist.map _)⟩
  · exact h.different r (RecordTable.mem_forget.mp hr).1
  · obtain ⟨hmem, hne, hne'⟩ := RecordTable.mem_forget.mp hr
    obtain ⟨hc, hc'⟩ := h.known r hmem
    exact ⟨Shelf.contains_remove.mpr ⟨hc, hne⟩, Shelf.contains_remove.mpr ⟨hc', hne'⟩⟩
  · exact h.score r (RecordTable.mem_forget.mp hr).1

/-- **The records of a bookmark are replaced by those of its best candidates.** -/
theorem replace [IsStrictOrderedRing K] (h : SoundRecords s t) (ht : s.contains target.id = true)
    (hbs : IsCandidates s target bs) (topN : Int) (now : Timestamp) :
    SoundRecords s (t.replace target.id (rankCandidates target bs topN now)) := by
  have hdistinct : ((rankCandidates target bs topN now : List (Record K)).map (·.relatedId)).Nodup :=
    nodup_relatedIds hbs.distinct
  have hrows : ∀ r ∈ (t.replace target.id (rankCandidates target bs topN now)).rows,
      r ∈ t.rows ∨ ∃ b ∈ bs, r.bookmarkId = target.id ∧ r.relatedId = b.id ∧ r.score = Similarity.score target b ∧
        1 / 10 < r.score := by
    intro r hr
    rcases (RecordTable.mem_replace hdistinct).mp hr with ⟨hmem, _⟩ | ⟨q, hq, rfl⟩
    · exact Or.inl hmem
    · obtain ⟨b, hb, rfl, hlt⟩ := exists_of_mem_rankCandidates hq
      have hlt := Scalar.lt_exact.mp hlt
      rw [Scalar.ratio_exact, Nat.cast_one, Nat.cast_ofNat] at hlt
      exact Or.inr ⟨b, hb, rfl, rfl, rfl, hlt⟩
  refine ⟨fun r hr => ?_, fun r hr => ?_, fun r hr => ?_, RecordTable.nodup_pairs_replace h.once hdistinct⟩
  · rcases hrows r hr with hmem | ⟨b, hb, hid, hrelated, _⟩
    · exact h.different r hmem
    · rw [hid, hrelated]
      exact (hbs.others b hb).symm
  · rcases hrows r hr with hmem | ⟨b, hb, hid, hrelated, _⟩
    · exact h.known r hmem
    · rw [hid, hrelated]
      exact ⟨ht, Shelf.contains_iff.mpr ⟨b, hbs.known b hb, rfl⟩⟩
  · rcases hrows r hr with hmem | ⟨b, _, _, _, hscore, hlt⟩
    · exact h.score r hmem
    · exact ⟨hlt, hscore ▸ score_le_one target b⟩

end SoundRecords

/-! ## Tasks -/

/-- The records of the store are sound. -/
def IsSound (w : State K) : Prop := SoundRecords w.store.shelf w.store.records

/-- A call of the store keeps the records sound if it does so where it is made. -/
theorem IsSound.store {β : Type} {op : StoreOperation} {f : State K → Except Fault β × State K} (h : IsSound w)
    (hf : IsSound (f w).2) : IsSound ((Task.store op f).run w).2 := by
  by_cases hw : w.Ready op
  · rw [run_store hw]
    exact hf
  · obtain ⟨e, _, he⟩ := run_store_not_ready hw
    rw [he]
    exact h

theorem IsSound.keepAll (h : IsSound w) (bs : List Bookmark) : IsSound ((keepAll bs).run w).2 :=
  h.store (SoundRecords.of_contains h fun _ => Shelf.contains_putAll bs)

theorem IsSound.keepOne (h : IsSound w) (b : Bookmark) : IsSound ((keepOne b).run w).2 := by
  have hheed : IsSound ((heed .upsertOne).run w).2 := by
    rw [heed_unchanged]
    exact h
  exact run_bind_keeps hheed fun _ _ hw' => run_bind_keeps (hw'.keepAll [b]) fun _ _ hw'' => hw''

theorem IsSound.delete (h : IsSound w) (id : String) : IsSound ((deleteBookmark id).run w).2 :=
  h.store (SoundRecords.delete h id)

theorem IsSound.wait (h : IsSound w) (seconds : Number) : IsSound ((letPass seconds).run w).2 :=
  letPass_keeps h (fun _ => h) seconds

/-- A task leaves a shelf as it is, and keeps the records sound. -/
def Upholds {β : Type} (s : Shelf) (t : Task K β) : Prop :=
  ∀ w, w.store.shelf = s → IsSound w → (t.run w).2.store.shelf = s ∧ IsSound (t.run w).2

theorem Upholds.pure {β : Type} (s : Shelf) (b : β) : Upholds s (Pure.pure b : Task K β) := fun _ hs h => ⟨hs, h⟩

theorem Upholds.bind {β γ : Type} {t : Task K β} {g : β → Task K γ} (h : Upholds s t) (hg : ∀ b, Upholds s (g b)) :
    Upholds s (t >>= g) := by
  intro w hs hw
  exact run_bind_keeps (P := fun w' => w'.store.shelf = s ∧ IsSound w') (h w hs hw) fun b w' ht => hg b w' ht.1 ht.2

variable [IsStrictOrderedRing K]

theorem IsSound.computeSimilar (h : IsSound w) (id : String) (topN : Option Int) {corpus : Option (List Bookmark)}
    (hc : ∀ cs ∈ corpus, ∀ b ∈ cs, b ∈ w.store.shelf.bookmarks) :
    IsSound ((computeSimilar id topN corpus).run w).2 := by
  obtain ⟨rs, w', hrun, hw'⟩ := comparing w id topN corpus
  rw [hrun]
  cases hw' with
  | unknown => exact h
  | lost => exact h
  | stored hfound =>
    obtain ⟨hget, hbs⟩ := isCandidates_of_run hfound hc
    obtain ⟨rfl, hcontains⟩ := Shelf.contains_of_get? hget
    exact SoundRecords.replace h hcontains hbs _ _

theorem IsSound.similarTo (h : IsSound w) (id : String) (limit : Option Int) :
    IsSound ((similarTo id limit).run w).2 := by
  have ha := answering w id limit
  cases hr : (Engine.similarTo id limit).run w with
  | mk r w' =>
    rw [hr] at ha
    cases ha with
    | recalled => exact h
    | undecided => exact h
    | computed hc =>
      have hw' : IsSound ((Engine.computeSimilar id none none).run w).2 := h.computeSimilar id none (by simp)
      rw [hc] at hw'
      exact hw'

theorem upholds_computeSimilar (id : String) (topN : Option Int) (hc : ∀ b ∈ bs, b ∈ s.bookmarks) :
    Upholds s (computeSimilar id topN (some bs) : Task K _) := by
  rintro w rfl hw
  refine ⟨(quiet_computeSimilar id topN (some bs) w).shelf, hw.computeSimilar id topN fun cs hcs => ?_⟩
  cases hcs
  exact hc

/-- **Comparing one bookmark after another keeps the records sound.** -/
theorem upholds_precomputeFrom (hc : ∀ b ∈ bs, b ∈ s.bookmarks) (total : Nat) :
    ∀ (completed : Nat) (cs : List Bookmark), Upholds s (precomputeFrom bs total completed cs : Task K _)
  | _, [] => .pure s _
  | completed, c :: cs =>
    (upholds_computeSimilar c.id none hc).bind fun _ =>
      (upholds_precomputeFrom hc total (completed + 1) cs).bind fun _ => .pure s _

theorem IsSound.precompute (h : IsSound w) : IsSound (precompute.run w).2 := by
  obtain ⟨cs, hrun, hcs⟩ := exists_allBookmarks w
  rw [Engine.precompute, Task.run_bind, hrun, Task.follow_ok]
  exact (((upholds_precomputeFrom hcs _ 0 _).bind fun _ => .pure _ _) w rfl h).2

/-! ## Runs -/

/-- The states of a run: bookmarks are kept, deleted and compared, the store fails and recovers, and time passes. -/
inductive Compared (w₀ : State K) : State K → Prop
  | start : Compared w₀ w₀
  | keepOne {w : State K} (b : Bookmark) (h : Compared w₀ w) : Compared w₀ ((keepOne b).run w).2
  | keepAll {w : State K} (bs : List Bookmark) (h : Compared w₀ w) : Compared w₀ ((keepAll bs).run w).2
  | delete {w : State K} (id : String) (h : Compared w₀ w) : Compared w₀ ((deleteBookmark id).run w).2
  | compute {w : State K} (id : String) (topN : Option Int) (h : Compared w₀ w) :
      Compared w₀ ((computeSimilar id topN none).run w).2
  | computeAmong {w : State K} (id : String) (topN : Option Int) (h : Compared w₀ w) :
      Compared w₀ ((computeSimilar id topN (some w.store.shelf.all)).run w).2
  | precompute {w : State K} (h : Compared w₀ w) : Compared w₀ (precompute.run w).2
  | similarTo {w : State K} (id : String) (limit : Option Int) (h : Compared w₀ w) :
      Compared w₀ ((similarTo id limit).run w).2
  | fail {w : State K} (op : StoreOperation) (message : String) (h : Compared w₀ w) :
      Compared w₀ ((putOutOfOrder op message).run w).2
  | recover {w : State K} (h : Compared w₀ w) : Compared w₀ (putInOrder.run w).2
  | wait {w : State K} (seconds : Number) (h : Compared w₀ w) : Compared w₀ ((letPass seconds).run w).2

/-- **A run keeps the records sound.** -/
theorem Compared.sound (h₀ : w₀.store.records.rows = []) (h : Compared w₀ w) : IsSound w := by
  induction h with
  | start => exact ⟨by simp [h₀], by simp [h₀], by simp [h₀], by simp [h₀]⟩
  | keepOne b _ ih => exact ih.keepOne b
  | keepAll bs _ ih => exact ih.keepAll bs
  | delete id _ ih => exact ih.delete id
  | compute id topN _ ih => exact ih.computeSimilar id topN (by simp)
  | computeAmong id topN _ ih =>
    refine ih.computeSimilar id topN fun cs hcs b hb => ?_
    cases hcs
    exact Shelf.mem_all.mp hb
  | precompute _ ih => exact ih.precompute
  | similarTo id limit _ ih => exact ih.similarTo id limit
  | fail op message _ ih => exact ih
  | recover _ ih => exact ih
  | wait seconds _ ih => exact ih.wait seconds

/-! ## What this says of answers -/

/-- **In every run the records stay sound, and the records that are answered for a bookmark are its own**, each of them
found out right now or younger than the lifetime of records. -/
theorem records_sound (h₀ : w₀.store.records.rows = []) (h : Compared w₀ w) :
    (∀ r ∈ w.store.records.rows, r.bookmarkId ≠ r.relatedId ∧ w.store.shelf.contains r.bookmarkId = true ∧
        w.store.shelf.contains r.relatedId = true ∧ 1 / 10 < r.score ∧ r.score ≤ 1) ∧
      (w.store.records.rows.map fun r => (r.bookmarkId, r.relatedId)).Nodup ∧
      ∀ id limit rs w', (similarTo id limit).run w = (.ok rs, w') → ∀ r ∈ rs, r.bookmarkId = id ∧
        (r.computedAt = w.now ∨ ∃ micros, microsOfSeconds w.settings.similarity.recordsLifetime = .ok micros ∧
          w.now.instant - r.computedAt.instant < micros) ∧
        ∀ micros, microsOfSeconds w.settings.similarity.recordsLifetime = .ok micros → 0 < micros →
          w.now.instant - r.computedAt.instant < micros := by
  have hw := h.sound h₀
  refine ⟨fun r hr => ?_, hw.once, fun id limit rs w' hrun r hr => ?_⟩
  · exact ⟨hw.different r hr, (hw.known r hr).1, (hw.known r hr).2, (hw.score r hr).1, (hw.score r hr).2⟩
  · obtain ⟨hid, hage⟩ := mem_of_run_similarTo hrun hr
    refine ⟨hid, hage, fun micros hm hpos => ?_⟩
    rcases hage with hnow | ⟨micros', hm', hage⟩
    · rw [hnow]
      omega
    · rw [hm] at hm'
      cases hm'
      exact hage

/-- Of two bookmarks that are alike, one is answered as a record of the other. -/
theorem run_similarTo_alike (lifetime : Number) :
    let a : Bookmark := { id := "a", title := "Lean", domain := "x.org" }
    let b : Bookmark := { id := "b", title := "Lean", domain := "x.org" }
    let w : State ℚ :=
      { store := { shelf := (({} : Shelf).put a).put b },
        settings := { similarity := { recordsLifetime := lifetime } } }
    (similarTo "b" none).run w = (.ok [recordOf b w.now a], w.withRecords "b" [recordOf b w.now a]) := by
  intro a b w
  have hfindable : Findable w := ⟨⟨rfl, rfl⟩, ⟨rfl, rfl⟩, ⟨rfl, rfl⟩, ⟨rfl, rfl⟩⟩
  have ho : OneOffset ((({} : Shelf).put a).put b) 0 := by decide +kernel
  have hsorted : [a, b].Pairwise fun c d => Shelf.listOrder c d = true := by decide +kernel
  have hall : w.store.shelf.all = [a, b] := Shelf.all_of_pairwise hsorted
  have hcandidates : candidatesAmong b w.store.shelf.all w.settings.similarity.caps = [a] := by
    have hnewest := newestFirst_all ho
    rw [hall] at hnewest ⊢
    exact candidatesAmong_of_domain hnewest (by decide) (by simp [a, b]) _
  have hrecords : (rankCandidates b [a] 10 w.now : List (Record ℚ)) = [recordOf b w.now a] :=
    rankCandidates_of_pairwise (by decide +kernel) (List.pairwise_singleton _ _) (by decide) _
  have hcompute : (computeSimilar "b" none none).run w =
      (.ok [recordOf b w.now a], w.withRecords "b" [recordOf b w.now a]) := by
    rw [← hrecords]
    exact run_computeSimilar_among hfindable ho (fun _ _ => capsFit_default _) ⟨rfl, rfl⟩ rfl hcandidates none
  have hnone : w.recalled "b" = [] := recalled_eq_nil ⟨rfl, rfl⟩ (by simp [w])
  exact run_similarTo_computed (run_freshRecords_of_none hnone) hcompute none

/-- Two bookmarks are compared and one of them is deleted: the record that was answered is gone. -/
theorem records_sound_sample :
    let a : Bookmark := { id := "a", title := "Lean", domain := "x.org" }
    let b : Bookmark := { id := "b", title := "Lean", domain := "x.org" }
    let w₀ : State ℚ :=
      { store := { shelf := (({} : Shelf).put a).put b },
        settings := { similarity := { recordsLifetime := .int 86400 } } }
    ∃ w₁ w₂ : State ℚ, w₁ = ((similarTo "b" none).run w₀).2 ∧ w₂ = ((deleteBookmark "a").run w₁).2 ∧
      w₀.store.records.rows = [] ∧ Compared w₀ w₁ ∧ Compared w₀ w₂ ∧ w₁.store.records.rows.length = 1 ∧
      (∀ r ∈ w₁.store.records.rows, 1 / 10 < r.score ∧ r.score ≤ 1) ∧
      ∀ r ∈ w₂.store.records.rows, w₂.store.shelf.contains r.relatedId = true := by
  intro a b w₀
  have h₁ : Compared w₀ ((similarTo "b" none).run w₀).2 := .similarTo "b" none .start
  have h₂ : Compared w₀ ((deleteBookmark "a").run ((similarTo "b" none).run w₀).2).2 := .delete "a" h₁
  have hrun := run_similarTo_alike (.int 86400)
  obtain ⟨hrows, _⟩ := records_sound rfl h₁
  obtain ⟨hrows', _⟩ := records_sound rfl h₂
  refine ⟨_, _, rfl, rfl, rfl, h₁, h₂, ?_, fun r hr => ?_, fun r hr => (hrows' r hr).2.2.1⟩
  · rw [hrun]
    rfl
  · exact ⟨(hrows r hr).2.2.2.1, (hrows r hr).2.2.2.2⟩

/-- **With a lifetime of zero a record is answered that is not younger than that**: it is computed each time. -/
theorem records_not_younger :
    let a : Bookmark := { id := "a", title := "Lean", domain := "x.org" }
    let b : Bookmark := { id := "b", title := "Lean", domain := "x.org" }
    let w : State ℚ :=
      { store := { shelf := (({} : Shelf).put a).put b },
        settings := { similarity := { recordsLifetime := .int 0 } } }
    w.store.records.rows = [] ∧ Compared w w ∧ ∃ r w', (similarTo "b" none).run w = (.ok [r], w') ∧
      microsOfSeconds w.settings.similarity.recordsLifetime = .ok 0 ∧
      ¬w.now.instant - r.computedAt.instant < 0 := by
  intro a b w
  refine ⟨rfl, .start, _, _, run_similarTo_alike (.int 0), rfl, ?_⟩
  show ¬w.now.instant - w.now.instant < 0
  omega

end Shelfmark.Engine
