import Mathlib.Algebra.Order.BigOperators.Group.List
import Shelfmark.Proofs.Similarity.Distance
import Shelfmark.Proofs.Text.Lowercase
import Shelfmark.Proofs.Text.Words
import Shelfmark.Similarity.Score

/-!
# How alike two bookmarks are

Every signal says the same about two bookmarks in either order (`component_comm`), and so does the score (`score_comm`).
What a signal says is a closeness, an overlap or a truth value (`component_cases`), so computed exactly it is one at
most (`component_le_one`), and so is the weighted mean (`score_le_one`).
-/

namespace Shelfmark.Similarity

variable {a b : Bookmark}

/-! ## The order of the bookmarks -/

/-- Both have a domain, and it is the same but for the case of the letters. -/
def SameSite (a b : Bookmark) : Prop := a.domain ≠ "" ∧ b.domain ≠ "" ∧ Text.lower a.domain = Text.lower b.domain

theorem isSameDomain_iff : isSameDomain a b = true ↔ SameSite a b := by
  simp only [isSameDomain, SameSite, Bool.and_eq_true, Bool.not_eq_true', String.isEmpty_eq_false_iff, beq_iff_eq]
  constructor
  · rintro ⟨ha, he⟩
    exact ⟨ha, fun hb => ha (Text.lower_eq_empty.mp (he.trans (Text.lower_eq_empty.mpr hb))), he⟩
  · rintro ⟨ha, _, he⟩
    exact ⟨ha, he⟩

theorem SameSite.symm (h : SameSite a b) : SameSite b a := ⟨h.2.1, h.1, h.2.2.symm⟩

theorem isSameDomain_comm (a b : Bookmark) : isSameDomain a b = isSameDomain b a := by
  rw [Bool.eq_iff_iff, isSameDomain_iff, isSameDomain_iff]
  exact ⟨SameSite.symm, SameSite.symm⟩

section Scalars

variable {α : Type} [Scalar α]

theorem pathCloseness_comm (a b : Bookmark) : (pathCloseness a b : Option α) = pathCloseness b a := by
  unfold pathCloseness
  cases Url.comparablePath? a.url with
  | none => cases Url.comparablePath? b.url <;> rfl
  | some p =>
    cases Url.comparablePath? b.url with
    | none => rfl
    | some q => exact congrArg some (closeness_comm _ _)

/-- **A signal says the same about two bookmarks in either order.** -/
theorem component_comm (a b : Bookmark) (s : Signal) : (component a b s : Option α) = component b a s := by
  cases s with
  | titleFuzzy =>
    simp only [component, closeness_comm (plainTitle a), Bool.and_comm (plainTitle a).isEmpty]
  | titleWords => exact overlap_comm (Text.nodup_distinct _) (Text.nodup_distinct _)
  | urlPath => simp only [component, isSameDomain_comm a, pathCloseness_comm a]
  | descriptionWords => exact overlap_comm (Text.nodup_distinct _) (Text.nodup_distinct _)
  | keywords => exact overlap_comm (Text.nodup_distinct _) (Text.nodup_distinct _)
  | category =>
    have hcategory : (Text.lower a.category == Text.lower b.category) =
      (Text.lower b.category == Text.lower a.category) := BEq.comm
    simp only [component, hcategory, Bool.and_comm a.category.isEmpty]
  | domain => simp only [component, isSameDomain_comm a]

/-- What a signal says is how close two texts are, how far two sets overlap, or whether something holds. -/
theorem component_cases {s : Signal} {v : α} (h : component a b s = some v) : (∃ cs bs, closeness cs bs = v) ∨
    (∃ xs ys : List String, xs.Nodup ∧ ys.Nodup ∧ overlap xs ys = some v) ∨ ∃ c, truth c = v := by
  cases s with
  | titleFuzzy =>
    simp only [component, Option.ite_none_left_eq_some, Option.some.injEq] at h
    exact Or.inl ⟨_, _, h.2⟩
  | titleWords => exact Or.inr (Or.inl ⟨_, _, Text.nodup_distinct _, Text.nodup_distinct _, h⟩)
  | urlPath =>
    simp only [component, Option.ite_none_right_eq_some] at h
    unfold pathCloseness at h
    split at h
    · exact Or.inl ⟨_, _, Option.some.inj h.2⟩
    · cases h.2
  | descriptionWords => exact Or.inr (Or.inl ⟨_, _, Text.nodup_distinct _, Text.nodup_distinct _, h⟩)
  | keywords => exact Or.inr (Or.inl ⟨_, _, Text.nodup_distinct _, Text.nodup_distinct _, h⟩)
  | category =>
    simp only [component, Option.ite_none_left_eq_some, Option.some.injEq] at h
    exact Or.inr (Or.inr ⟨_, h.2⟩)
  | domain => exact Or.inr (Or.inr ⟨_, Option.some.inj h⟩)

theorem evidence_comm (a b : Bookmark) : (evidence a b : List (Signal × α × α)) = evidence b a := by
  simp only [evidence, weights, isSameDomain_comm a, component_comm a]

/-- **Two bookmarks are as alike in either order.** -/
theorem score_comm (a b : Bookmark) : (score a b : α) = score b a := by
  rw [score, score, evidence_comm]

end Scalars

/-! ## Exact scores -/

section Exact

variable {K : Type} [Field K] [LinearOrder K] [IsStrictOrderedRing K] {v : K}

theorem truth_le_one (c : Bool) : (truth c : K) ≤ 1 := by
  cases c <;> simp [truth]

/-- **No signal says more than one.** -/
theorem component_le_one {s : Signal} (h : component a b s = some v) : v ≤ 1 := by
  rcases component_cases h with ⟨cs, bs, rfl⟩ | ⟨xs, ys, hx, hy, hv⟩ | ⟨c, rfl⟩
  · exact closeness_le_one cs bs
  · exact overlap_le_one hx hy hv
  · exact truth_le_one c

/-- A weighted mean is one at most if its parts are. -/
theorem weightedMean_le_one {es : List (Signal × K × K)} (h : ∀ e ∈ es, 0 ≤ e.2.1 ∧ e.2.2 ≤ 1) :
    weightedMean es ≤ 1 := by
  have hparts : (es.map fun e => e.2.1 * e.2.2).sum ≤ (es.map fun e => e.2.1).sum :=
    List.sum_le_sum fun e he => mul_le_of_le_one_right (h e he).1 (h e he).2
  have htotal : 0 ≤ (es.map fun e => e.2.1).sum := by
    refine List.sum_nonneg fun w hw => ?_
    obtain ⟨e, he, rfl⟩ := List.mem_map.mp hw
    exact (h e he).1
  simp only [weightedMean, Scalar.sum_exact, Scalar.isZero_exact]
  split
  · simp
  · exact div_le_one_of_le₀ hparts htotal

/-- **The score is one at most.** -/
theorem score_le_one (a b : Bookmark) : (score a b : K) ≤ 1 := by
  refine weightedMean_le_one fun e he => ?_
  obtain ⟨⟨s, w⟩, _, hs⟩ := List.mem_filterMap.mp he
  obtain ⟨v, hv, rfl⟩ := Option.map_eq_some_iff.mp hs
  exact ⟨div_nonneg (Nat.cast_nonneg _) (Nat.cast_nonneg _), component_le_one hv⟩

end Exact

end Shelfmark.Similarity
