import Mathlib.Data.List.Nodup
import Shelfmark.Proofs.Order.Scalars
import Shelfmark.Similarity.Candidates

/-!
# Records of candidates

Each candidate is selected once, from one of the sources, and the target is none of them (`mem_select`,
`nodup_ids_select`).  The best candidates do not depend on the time (`best`), and their records are the records that are
kept (`rankCandidates_eq`).  So no two records name one candidate (`nodup_relatedIds`), and they are sorted
(`sorted_rankCandidates`).
-/

namespace Shelfmark

theorem upTo_sublist {β : Type} (limit : Int) (xs : List β) : (upTo limit xs).Sublist xs := by
  unfold upTo
  split
  · exact List.take_sublist _ _
  · exact List.take_sublist _ _

theorem upTo_map {β γ : Type} (f : β → γ) (limit : Int) (xs : List β) :
    upTo limit (xs.map f) = (upTo limit xs).map f := by
  simp only [upTo, List.length_map, List.map_take, apply_ite (List.map f)]

theorem upTo_of_nonneg {β : Type} {limit : Int} (h : 0 ≤ limit) (xs : List β) : upTo limit xs = xs.take limit.toNat :=
  if_pos h

@[simp] theorem upTo_nil {β : Type} (limit : Int) : upTo limit ([] : List β) = [] := by
  simp [upTo]

namespace Similarity

/-! ## Candidates -/

section Candidates

variable {b target : Bookmark} {cap : Int} {sameDomain sameCategory corpus source : List Bookmark} {caps : Caps}

theorem mem_freshBookmarks : ∀ {seen : List String} {bs : List Bookmark}, b ∈ freshBookmarks seen bs →
    b ∈ bs ∧ b.id ∉ seen
  | _, [], h => by cases h
  | seen, c :: rest, h => by
    unfold freshBookmarks at h
    split at h
    · obtain ⟨hb, hseen⟩ := mem_freshBookmarks h
      exact ⟨List.mem_cons_of_mem c hb, hseen⟩
    · rename_i hc
      rcases List.mem_cons.mp h with rfl | h
      · exact ⟨List.mem_cons_self, by simpa using hc⟩
      · obtain ⟨hb, hseen⟩ := mem_freshBookmarks h
        exact ⟨List.mem_cons_of_mem c hb, fun hs => hseen (List.mem_cons_of_mem _ hs)⟩

theorem nodup_ids_freshBookmarks : ∀ (seen : List String) (bs : List Bookmark),
    ((freshBookmarks seen bs).map (·.id)).Nodup
  | _, [] => List.nodup_nil
  | seen, c :: rest => by
    unfold freshBookmarks
    split
    · exact nodup_ids_freshBookmarks seen rest
    · refine List.nodup_cons.mpr ⟨fun hc => ?_, nodup_ids_freshBookmarks _ rest⟩
      obtain ⟨b, hb, hid⟩ := List.mem_map.mp hc
      exact (mem_freshBookmarks hb).2 (hid ▸ List.mem_cons_self)

theorem mem_takeOthers (h : b ∈ takeOthers target cap source) : b ∈ source ∧ b.id ≠ target.id := by
  obtain ⟨hb, hne⟩ := List.mem_filter.mp (List.mem_of_mem_take h)
  exact ⟨hb, by simpa using hne⟩

/-- **A candidate comes from one of the sources and is not the target.** -/
theorem mem_select (h : b ∈ select target sameDomain sameCategory corpus caps) :
    (b ∈ sameDomain ∨ b ∈ sameCategory ∨ b ∈ corpus) ∧ b.id ≠ target.id := by
  have hb := (mem_freshBookmarks h).1
  simp only [List.mem_append] at hb
  rcases hb with (hb | hb) | hb
  · exact ⟨Or.inl (mem_takeOthers hb).1, (mem_takeOthers hb).2⟩
  · exact ⟨Or.inr (Or.inl (mem_takeOthers hb).1), (mem_takeOthers hb).2⟩
  · exact ⟨Or.inr (Or.inr (List.mem_filter.mp (mem_takeOthers hb).1).1), (mem_takeOthers hb).2⟩

/-- **Each candidate is selected once.** -/
theorem nodup_ids_select (target : Bookmark) (sameDomain sameCategory corpus : List Bookmark) (caps : Caps) :
    ((select target sameDomain sameCategory corpus caps).map (·.id)).Nodup :=
  nodup_ids_freshBookmarks [] _

end Candidates

/-! ## The best candidates -/

section Best

variable {α : Type} [Scalar α] {target : Bookmark} {bs : List Bookmark} {topN : Int} {now : Timestamp} {r : Record α}

/-- The candidates that are alike enough, the best first. -/
def best (α : Type) [Scalar α] (target : Bookmark) (bs : List Bookmark) (topN : Int) : List Bookmark :=
  upTo topN (Scalar.descending (fun b => (score target b : α))
    (bs.filter fun b => Scalar.lt (Scalar.ratio 1 10) (score target b : α)))

/-- **The records that are kept are those of the best candidates.** -/
theorem rankCandidates_eq (target : Bookmark) (bs : List Bookmark) (topN : Int) (now : Timestamp) :
    (rankCandidates target bs topN now : List (Record α)) = (best α target bs topN).map (recordOf target now) := by
  -- sorting looks at nothing but the scores, which the records have from their candidates
  have hsort : ∀ cs : List Bookmark, (Scalar.descending (fun b => (score target b : α)) cs).map (recordOf target now) =
      Scalar.descending (·.score) (cs.map (recordOf target now)) :=
    fun _ => List.map_mergeSort fun _ _ _ _ => rfl
  rw [best, ← upTo_map, hsort, rankCandidates, List.filter_map]
  rfl

/-- Candidates that are all alike enough are kept in their order if the best come first and no more than asked for. -/
theorem rankCandidates_of_pairwise (hlikely : ∀ b ∈ bs, Scalar.lt (Scalar.ratio 1 10) (score target b : α) = true)
    (hsorted : bs.Pairwise fun b c => Scalar.le (score target c : α) (score target b) = true)
    (hlength : (bs.length : Int) ≤ topN) (now : Timestamp) :
    (rankCandidates target bs topN now : List (Record α)) = bs.map (recordOf target now) := by
  have hkept : best α target bs topN = bs := by
    rw [best, List.filter_eq_self.mpr hlikely, Scalar.descending, List.mergeSort_of_pairwise hsorted,
      upTo_of_nonneg (by omega), List.take_of_length_le (by omega)]
  rw [rankCandidates_eq, hkept]

theorem mem_best {b : Bookmark} (h : b ∈ best α target bs topN) :
    b ∈ bs ∧ Scalar.lt (Scalar.ratio 1 10) (score target b : α) = true :=
  List.mem_filter.mp ((List.mergeSort_perm _ _).mem_iff.mp ((upTo_sublist topN _).subset h))

theorem nodup_ids_best (h : (bs.map (·.id)).Nodup) : ((best α target bs topN).map (·.id)).Nodup := by
  have hfilter : ((bs.filter fun b => Scalar.lt (Scalar.ratio 1 10) (score target b : α)).map (·.id)).Nodup :=
    h.sublist (List.filter_sublist.map _)
  exact (((List.mergeSort_perm _ _).map _).nodup_iff.mpr hfilter).sublist ((upTo_sublist topN _).map _)

/-- **No two records name one candidate.** -/
theorem nodup_relatedIds (h : (bs.map (·.id)).Nodup) :
    ((rankCandidates target bs topN now : List (Record α)).map (·.relatedId)).Nodup := by
  rw [rankCandidates_eq, List.map_map]
  exact nodup_ids_best h

/-- A record is that of a candidate that is alike enough. -/
theorem exists_of_mem_rankCandidates (h : r ∈ (rankCandidates target bs topN now : List (Record α))) :
    ∃ b ∈ bs, recordOf target now b = r ∧ Scalar.lt (Scalar.ratio 1 10) r.score = true := by
  rw [rankCandidates_eq] at h
  obtain ⟨b, hb, rfl⟩ := List.mem_map.mp h
  exact ⟨b, (mem_best hb).1, rfl, (mem_best hb).2⟩

theorem bookmarkId_of_mem (h : r ∈ (rankCandidates target bs topN now : List (Record α))) :
    r.bookmarkId = target.id := by
  obtain ⟨b, _, rfl, _⟩ := exists_of_mem_rankCandidates h
  rfl

theorem computedAt_of_mem (h : r ∈ (rankCandidates target bs topN now : List (Record α))) : r.computedAt = now := by
  obtain ⟨b, _, rfl, _⟩ := exists_of_mem_rankCandidates h
  rfl

/-- Whether there are records does not depend on the time. -/
theorem rankCandidates_eq_nil_congr (now' : Timestamp)
    (h : (rankCandidates target bs topN now : List (Record α)) = []) :
    (rankCandidates target bs topN now' : List (Record α)) = [] := by
  rw [rankCandidates_eq, List.map_eq_nil_iff] at *
  exact h

/-- **The records are sorted, the best first.** -/
theorem sorted_rankCandidates [Scalar.IsOrdered α] (h : ∀ b ∈ bs, Scalar.IsNumber (score target b : α)) :
    (rankCandidates target bs topN now).Pairwise fun r r' : Record α => Scalar.le r'.score r.score = true := by
  rw [rankCandidates_eq]
  refine List.pairwise_map.mpr (List.Pairwise.sublist (upTo_sublist topN _) ?_)
  exact (Scalar.stablySorted_descending fun b hb => h b (List.mem_filter.mp hb).1).sorted

end Best

end Similarity

end Shelfmark
