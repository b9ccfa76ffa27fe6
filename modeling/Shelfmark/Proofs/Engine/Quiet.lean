import Shelfmark.Proofs.Engine.Pairs
import Shelfmark.Proofs.Engine.Reading

/-!
# Comparisons leave index and cache alone

A task is quiet (`Quiet`) if however it ends it changes nothing but the stored records and the lock.  What is made of
quiet tasks is quiet, and so are all comparisons of bookmarks but the search for similar pairs.
-/

namespace Shelfmark.Engine

variable {α β γ : Type}

/-- The states differ in the stored records and the lock at most. -/
structure Undisturbed (w w' : State α) : Prop extends SameIndex w w' where
  cache : w'.store.cache = w.store.cache

theorem Undisturbed.refl (w : State α) : Undisturbed w w := ⟨.refl w, rfl⟩

theorem Undisturbed.trans {w w' w'' : State α} (h : Undisturbed w w') (h' : Undisturbed w' w'') : Undisturbed w w'' :=
  ⟨h.toSameIndex.trans h'.toSameIndex, h'.cache.trans h.cache⟩

/-- A task changes nothing but the stored records and the lock. -/
def Quiet (t : Task α β) : Prop := ∀ w, Undisturbed w (t.run w).2

/-! ## Tasks made of quiet ones -/

namespace Quiet

variable {t : Task α β} {g : β → Task α γ}

theorem pure (b : β) : Quiet (Pure.pure b : Task α β) := fun w => .refl w

theorem look (f : State α → β) : Quiet (Task.look f) := fun w => .refl w

theorem ofExcept (r : Except Fault β) : Quiet (Task.ofExcept r : Task α β) := by
  intro w
  rw [Task.run_ofExcept]
  exact .refl w

theorem pause : Quiet (Task.pause : Task α Unit) := fun w => .refl w

/-- **One quiet task after another is quiet.** -/
theorem bind (h : Quiet t) (hg : ∀ b, Quiet (g b)) : Quiet (t >>= g) := by
  intro w
  exact run_bind_keeps (h w) fun b w' ht => ht.trans (hg b w')

theorem ite {t' : Task α β} {c : Prop} [Decidable c] (h : Quiet t) (h' : Quiet t') : Quiet (if c then t else t') := by
  split
  · exact h
  · exact h'

theorem attempt (h : Quiet t) : Quiet t.attempt := by
  intro w
  rw [Task.run_attempt]
  exact h w

theorem locked (h : Quiet t) : Quiet (Task.locked t) := by
  intro w
  rw [Task.run_locked]
  have hl := h w.lock
  exact ⟨⟨hl.host, hl.shelf, hl.isOpen, hl.faults, hl.entry, hl.editions, hl.current⟩, hl.cache⟩

theorem orElse (h : Quiet t) (other : β) : Quiet (Engine.orElse t other) := by
  intro w
  rw [run_orElse]
  exact h w

/-- A call of the store that is quiet where it is made. -/
theorem store {op : StoreOperation} {f : State α → Except Fault β × State α} (h : ∀ w, Undisturbed w (f w).2) :
    Quiet (Task.store op f) := by
  intro w
  by_cases hw : w.Ready op
  · rw [run_store hw]
    exact h w
  · obtain ⟨e, _, hrun⟩ := run_store_not_ready hw
    rw [hrun]
    exact .refl w

end Quiet

/-! ## Comparisons -/

/-- A task that only reads is quiet. -/
theorem ReadsOnly.quiet {t : Task α β} (h : ReadsOnly t) : Quiet t := by
  intro w
  rw [h.unchanged]
  exact .refl w

theorem quiet_allBookmarks : Quiet (allBookmarks : Task α _) := reads_allBookmarks.quiet

theorem quiet_findDuplicates : Quiet (findDuplicates : Task α _) :=
  (quiet_allBookmarks.orElse _).bind fun _ => .pure _

theorem quiet_findRelated (id : String) (limit : Int) : Quiet (findRelated id limit : Task α _) :=
  (quiet_allBookmarks.orElse _).bind fun _ => .pure _

theorem quiet_storeRecords (id : String) (rs : List (Similarity.Record α)) : Quiet (storeRecords id rs) :=
  .store fun _ => ⟨⟨rfl, rfl, rfl, rfl, rfl, rfl, rfl⟩, rfl⟩

section Records

variable [Scalar α]

theorem quiet_storedRecords (id : String) : Quiet (storedRecords id : Task α _) := .store .refl

/-- **Computing records changes nothing but the records.** -/
theorem quiet_computeSimilar (id : String) (topN : Option Int) (corpus : Option (List Bookmark)) :
    Quiet (computeSimilar id topN corpus : Task α _) := by
  unfold computeSimilar
  refine ((reads_targetAndCandidates id corpus).quiet.orElse _).bind fun found => ?_
  cases found with
  | none => exact .pure _
  | some p =>
    refine (Quiet.look _).bind fun _ => (Quiet.look _).bind fun _ => .bind ?_ fun _ => .pure _
    exact (quiet_storeRecords _ _).locked.orElse _

theorem quiet_freshRecords (id : String) : Quiet (freshRecords id : Task α _) := by
  unfold freshRecords
  refine ((quiet_storedRecords id).orElse _).bind fun rs => ?_
  refine .ite (.pure _) ?_
  exact (Quiet.look _).bind fun _ => (Quiet.ofExcept _).bind fun _ => (Quiet.look _).bind fun _ => .pure _

theorem quiet_similarTo (id : String) (limit : Option Int) : Quiet (similarTo id limit : Task α _) := by
  unfold similarTo
  refine (quiet_freshRecords id).bind fun rs => ?_
  cases rs with
  | none => exact (quiet_computeSimilar id none none).bind fun _ => .pure _
  | some rs => exact (Quiet.pure _).bind fun _ => .pure _

theorem quiet_precomputeFrom (corpus : List Bookmark) (total : Nat) :
    ∀ (bs : List Bookmark) (completed : Nat), Quiet (precomputeFrom corpus total completed bs : Task α _)
  | [], _ => .pure _
  | b :: rest, completed =>
    (quiet_computeSimilar b.id none (some corpus)).bind fun _ =>
      (quiet_precomputeFrom corpus total rest (completed + 1)).bind fun _ => .pure _

theorem quiet_precompute : Quiet (precompute : Task α _) :=
  (quiet_allBookmarks.orElse _).bind fun bs => (quiet_precomputeFrom bs _ _ _).bind fun _ => .pure _

theorem quiet_scanForDuplicates (threshold : Number → α) (options : Option Similarity.ScanOptions) :
    Quiet (scanForDuplicates threshold options : Task α _) := by
  unfold scanForDuplicates
  refine (Quiet.look _).bind fun _ => (Quiet.ofExcept _).bind fun _ => quiet_allBookmarks.attempt.bind fun r => ?_
  cases r with
  | error e => exact .pure _
  | ok bs => exact Quiet.pause.bind fun _ => .pure _

end Records

end Shelfmark.Engine
