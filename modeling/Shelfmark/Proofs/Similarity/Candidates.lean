import Shelfmark.Engine.Comparing
import Shelfmark.Proofs.Store.Newest

/-!
# Candidates from the shelf

One bookmark more than a cap leaves enough candidates, whether or not the target is among them (`takeOthers_cutOff`).
Bookmarks whose times have one offset are listed by the shelf in the order of their times (`newestFirst_all`).  So
candidates that are looked up source by source, with limits, are those among all the bookmarks (`select_sharing`).
-/

namespace Shelfmark

variable {s : Shelf} {target : Bookmark} {offset : Int}

namespace Similarity

variable {bs : List Bookmark}

/-- Without one id, the first members of a list are found among as many and one more. -/
theorem take_filter_take {id : String} : ∀ {bs : List Bookmark} (n : Nat), (bs.map (·.id)).Nodup →
    ((bs.take (n + 1)).filter fun b => b.id != id).take n = (bs.filter fun b => b.id != id).take n
  | [], _, _ => rfl
  | b :: bs, n, h => by
    obtain ⟨hb, hbs⟩ := List.nodup_cons.mp h
    by_cases hid : b.id = id
    · have hothers : ∀ c ∈ bs, (c.id != id) = true := fun c hc =>
        bne_iff_ne.mpr fun he => hb (List.mem_map.mpr ⟨c, hc, he.trans hid.symm⟩)
      have hkept := List.filter_eq_self.mpr hothers
      have hkept' := List.filter_eq_self.mpr fun c hc => hothers c (List.mem_of_mem_take (i := n) hc)
      rw [List.take_succ_cons, List.filter_cons_of_neg (by simp [hid]), List.filter_cons_of_neg (by simp [hid]), hkept,
        hkept', List.take_take, Nat.min_self]
    · have hne : ∀ cs : List Bookmark, (b :: cs).filter (fun c => c.id != id) = b :: cs.filter fun c => c.id != id :=
        fun _ => List.filter_cons_of_pos (bne_iff_ne.mpr hid)
      rw [List.take_succ_cons, hne, hne]
      cases n with
      | zero => rfl
      | succ n => rw [List.take_succ_cons, List.take_succ_cons, take_filter_take n hbs]

/-- **One bookmark more than a cap leaves enough candidates.** -/
theorem takeOthers_cutOff (target : Bookmark) (cap : Int) (h : (bs.map (·.id)).Nodup) :
    takeOthers target cap (Shelf.cutOff (some (cap + 1)) bs) = takeOthers target cap bs := by
  simp only [Shelf.cutOff]
  split
  · rfl
  · rename_i hcap
    by_cases hneg : cap < 0
    · have hzero : cap.toNat = 0 := by omega
      simp only [takeOthers, hzero, List.take_zero]
    · have hsucc : (cap + 1).toNat = cap.toNat + 1 := by omega
      rw [takeOthers, hsucc, take_filter_take _ h]
      rfl

/-- A bookmark without keywords shares none. -/
theorem shareKeyword_of_isEmpty (h : target.keywords.isEmpty = true) (b : Bookmark) :
    shareKeyword target b = false := by
  rw [shareKeyword, keywordSet, List.isEmpty_iff.mp h]
  rfl

end Similarity

/-! ## The newest bookmarks -/

namespace Engine

open Similarity

/-- **Where all times have one offset the shelf lists the newest bookmarks first.** -/
theorem newestFirst_all (h : ∀ b ∈ s.bookmarks, b.dateAdded.offset = offset) : newestFirst s.all = s.all := by
  refine List.mergeSort_of_pairwise (s.pairwise_all.imp_of_mem fun {a b} ha hb hab => ?_)
  have ho : b.dateAdded.offset = a.dateAdded.offset := by rw [h a (Shelf.mem_all.mp ha), h b (Shelf.mem_all.mp hb)]
  exact decide_eq_true ((Shelf.instant_le_iff_of_listOrder hab).mpr (Timestamp.not_misplaced_of_offset_eq ho))

/-- Bookmarks of the target's domain alone, the newest first: all of them share its domain. -/
theorem candidatesAmong_of_domain {bs : List Bookmark} (hnewest : newestFirst bs = bs) (hne : target.domain ≠ "")
    (h : ∀ b ∈ bs, b.domain = target.domain) (caps : Caps) : candidatesAmong target bs caps = select target bs
      (bs.filter fun b => !target.category.isEmpty && Text.lower b.category == Text.lower target.category) bs caps := by
  have hall : bs.filter (fun b => !target.domain.isEmpty && Text.lower b.domain == Text.lower target.domain) = bs :=
    List.filter_eq_self.mpr fun b hb => by simp [h b hb, hne]
  rw [candidatesAmong]
  simp only [hnewest, hall]

/-- The bookmarks that share a part with the target, up to a limit: none if the target has no such part. -/
def sharing (s : Shelf) (part : Bookmark → String) (target : Bookmark) (limit : Option Int) : List Bookmark :=
  if (part target).isEmpty then []
  else Shelf.cutOff limit (s.all.filter fun b => Text.lower (part b) == Text.lower (part target))

theorem takeOthers_sharing (s : Shelf) (part : Bookmark → String) (target : Bookmark) (cap : Int) :
    takeOthers target cap (sharing s part target (some (cap + 1))) =
      takeOthers target cap
        (s.all.filter fun b => !(part target).isEmpty && Text.lower (part b) == Text.lower (part target)) := by
  unfold sharing
  split
  · rename_i hpart
    simp [hpart]
  · rename_i hpart
    have hne : (!(part target).isEmpty) = true := by simpa using hpart
    simp only [hne, Bool.true_and]
    exact takeOthers_cutOff target cap (s.nodup_all_ids.sublist (List.filter_sublist.map _))

/-- **Candidates that are looked up source by source are those among all bookmarks.** -/
theorem select_sharing (h : ∀ b ∈ s.bookmarks, b.dateAdded.offset = offset) (target : Bookmark) (caps : Caps) :
    select target (sharing s (·.domain) target (some (caps.domain + 1)))
        (sharing s (·.category) target (some (caps.category + 1)))
        (if target.keywords.isEmpty then [] else s.all) caps =
      candidatesAmong target s.all caps := by
  have hpool : (if target.keywords.isEmpty then [] else s.all).filter (shareKeyword target) =
      s.all.filter (shareKeyword target) := by
    split
    · rename_i hempty
      have hnone : ∀ b ∈ s.all, ¬shareKeyword target b = true := fun b _ => by
        simp [shareKeyword_of_isEmpty hempty b]
      rw [List.filter_eq_nil_iff.mpr hnone]
      rfl
    · rfl
  simp only [candidatesAmong, newestFirst_all h, select, takeOthers_sharing, hpool]

end Engine

end Shelfmark
