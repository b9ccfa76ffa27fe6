import Mathlib.Algebra.BigOperators.Ring.List
import Mathlib.Algebra.Order.Field.Rat
import Shelfmark.Proofs.Similarity.Score

/-!
# What the signals say

A signal says something about two bookmarks exactly if one of them has what it looks at; paths are compared only within
one site, and if both addresses have one (`HasData`, `isSome_component_iff`).  What it says lies between zero and one,
and is one for bookmarks that agree (`component_nonneg`, `component_of_agree`).

The breakdown lists the signals that count and say something (`mem_breakdown`), and the score is the sum of what they
say, each with its part of their weight (`score_eq_sum`).  So the score lies between zero and one, does not depend on
the order of the bookmarks, and is one for bookmarks that agree (`score_bounded_symmetric_reflexive`).
-/

namespace Shelfmark.Similarity

variable {a b : Bookmark} {s : Signal} {K : Type} [Field K] [LinearOrder K]

/-! ## Signals with data -/

/-- One of the bookmarks has what the signal looks at, and for paths both of them, which are of one site. -/
def HasData (a b : Bookmark) : Signal → Prop
  | .titleFuzzy => plainTitle a ≠ [] ∨ plainTitle b ≠ []
  | .titleWords => Text.plainWords a.title ≠ [] ∨ Text.plainWords b.title ≠ []
  | .urlPath =>
    SameSite a b ∧ (Url.comparablePath? a.url).isSome = true ∧ (Url.comparablePath? b.url).isSome = true
  | .descriptionWords => Text.plainWords a.description ≠ [] ∨ Text.plainWords b.description ≠ []
  | .keywords => a.keywords ≠ [] ∨ b.keywords ≠ []
  | .category => a.category ≠ "" ∨ b.category ≠ ""
  | .domain => True

section Presence

variable {α : Type} [Scalar α]

/-- Two sets overlap in some part unless both are empty. -/
theorem isSome_overlap {xs ys : List String} :
    (overlap xs ys : Option α).isSome = true ↔ xs ≠ [] ∨ ys ≠ [] := by
  unfold overlap
  split
  · rename_i hempty
    simpa using hempty
  · rename_i hne
    simpa [← not_and_or] using hne

theorem isSome_pathCloseness : (pathCloseness a b : Option α).isSome = true ↔
    (Url.comparablePath? a.url).isSome = true ∧ (Url.comparablePath? b.url).isSome = true := by
  unfold pathCloseness
  cases Url.comparablePath? a.url with
  | none => simp
  | some p => cases Url.comparablePath? b.url <;> simp

/-- **A signal says something exactly if it has data.** -/
theorem isSome_component_iff : ∀ s : Signal, (component a b s : Option α).isSome = true ↔ HasData a b s
  | .titleFuzzy => by simp [component, HasData, Option.isSome_ite', ← not_and_or]
  | .titleWords => isSome_overlap.trans (by simp [Text.plainWordSet, HasData])
  | .urlPath => by
    by_cases hsite : isSameDomain a b = true
    · have hsame : SameSite a b := isSameDomain_iff.mp hsite
      simp [component, HasData, hsite, hsame, isSome_pathCloseness]
    · have hapart : ¬SameSite a b := fun h => hsite (isSameDomain_iff.mpr h)
      simp [component, HasData, hsite, hapart]
  | .descriptionWords => isSome_overlap.trans (by simp [Text.plainWordSet, HasData])
  | .keywords => isSome_overlap.trans (by simp [keywordSet, HasData])
  | .category => by simp [component, HasData, ← not_and_or]
  | .domain => by simp [component, HasData]

end Presence

/-! ## The signals that count -/

section Breakdown

/-- The weight of a signal for two bookmarks in hundredths; zero if it does not count. -/
def weightOf (a b : Bookmark) (s : Signal) : Nat := ((weights a b).lookup s).getD 0

/-- Each signal that counts has one weight. -/
theorem weightOf_of_mem {w : Nat} (h : (s, w) ∈ weights a b) : weightOf a b s = w ∧ 0 < w := by
  have hsame : ∀ p ∈ sameDomainWeights, (sameDomainWeights.lookup p.1).getD 0 = p.2 ∧ 0 < p.2 := by decide
  have hcross : ∀ p ∈ crossDomainWeights, (crossDomainWeights.lookup p.1).getD 0 = p.2 ∧ 0 < p.2 := by decide
  unfold weights at h
  unfold weightOf weights
  split at h <;> rename_i hsite
  · rw [if_pos hsite]
    exact hsame _ h
  · rw [if_neg hsite]
    exact hcross _ h

theorem mem_weights_iff : (∃ w, (s, w) ∈ weights a b) ↔ 0 < weightOf a b s := by
  constructor
  · rintro ⟨w, hw⟩
    obtain ⟨rfl, hpos⟩ := weightOf_of_mem hw
    exact hpos
  · intro hpos
    unfold weightOf at hpos
    cases hlookup : (weights a b).lookup s with
    | none => simp [hlookup] at hpos
    | some w =>
      obtain ⟨l₁, l₂, hsplit, _⟩ := List.lookup_eq_some_iff.mp hlookup
      exact ⟨w, by simp [hsplit]⟩

variable {α : Type} [Scalar α] {v : α}

theorem mem_evidence {e : Signal × α × α} : e ∈ evidence a b ↔ 0 < weightOf a b e.1 ∧
    e.2.1 = Scalar.ratio (weightOf a b e.1) 100 ∧ component a b e.1 = some e.2.2 := by
  obtain ⟨s, x, v⟩ := e
  simp only [evidence, List.mem_filterMap, Option.map_eq_some_iff, Prod.mk.injEq]
  constructor
  · rintro ⟨⟨s', w⟩, hw, v', hv, rfl, rfl, rfl⟩
    obtain ⟨hweight, hpos⟩ := weightOf_of_mem hw
    exact ⟨hweight ▸ hpos, by rw [hweight], hv⟩
  · rintro ⟨hpos, rfl, hv⟩
    obtain ⟨w, hw⟩ := mem_weights_iff.mpr hpos
    exact ⟨(s, w), hw, v, hv, rfl, by rw [(weightOf_of_mem hw).1], rfl⟩

/-- **The breakdown lists the signals that count and say something, with what they say.** -/
theorem mem_breakdown : (s, v) ∈ breakdown a b ↔ 0 < weightOf a b s ∧ component a b s = some v := by
  simp only [breakdown, List.mem_map, Prod.exists, mem_evidence, Prod.mk.injEq]
  constructor
  · rintro ⟨s', x, v', ⟨hpos, _, hv⟩, rfl, rfl⟩
    exact ⟨hpos, hv⟩
  · rintro ⟨hpos, hv⟩
    exact ⟨s, _, v, ⟨hpos, rfl, hv⟩, rfl, rfl⟩

/-- No signal is listed twice. -/
theorem nodup_breakdown (a b : Bookmark) : ((breakdown a b : List (Signal × α)).map Prod.fst).Nodup := by
  have hweights : (weights a b).Pairwise fun p q => p.1 ≠ q.1 := by
    unfold weights
    split <;> decide
  have hlist : (breakdown a b : List (Signal × α)) =
      (weights a b).filterMap fun p => (component a b p.1).map (p.1, ·) := by
    simp only [breakdown, evidence, List.map_filterMap, Option.map_map]
    rfl
  rw [hlist]
  refine List.pairwise_map.mpr (hweights.filterMap _ fun p q hne x hx y hy => ?_)
  obtain ⟨_, _, rfl⟩ := Option.map_eq_some_iff.mp hx
  obtain ⟨_, _, rfl⟩ := Option.map_eq_some_iff.mp hy
  exact hne

theorem breakdown_comm (a b : Bookmark) : (breakdown a b : List (Signal × α)) = breakdown b a := by
  rw [breakdown, evidence_comm, breakdown]

/-- The breakdown together with the weights is what the score is made of. -/
theorem evidence_eq (a b : Bookmark) : (evidence a b : List (Signal × α × α)) =
    (breakdown a b).map fun p => (p.1, Scalar.ratio (weightOf a b p.1) 100, p.2) := by
  rw [breakdown, List.map_map]
  conv_lhs => rw [← List.map_id (evidence a b)]
  refine List.map_congr_left fun e he => ?_
  obtain ⟨_, hweight, _⟩ := mem_evidence.mp he
  exact Prod.ext rfl (Prod.ext hweight rfl)

end Breakdown

/-! ## Exact scores -/

section Exact

variable [IsStrictOrderedRing K] {v : K}

theorem truth_nonneg (c : Bool) : 0 ≤ (truth c : K) := by
  cases c <;> simp [truth]

/-- **No signal says less than zero.** -/
theorem component_nonneg (h : component a b s = some v) : 0 ≤ v := by
  rcases component_cases h with ⟨cs, bs, rfl⟩ | ⟨xs, ys, _, _, hv⟩ | ⟨c, rfl⟩
  · exact closeness_nonneg cs bs
  · exact overlap_nonneg hv
  · exact truth_nonneg c

/-- Two bookmarks are the same in everything that signals look at. -/
structure Agree (a b : Bookmark) : Prop where
  title : a.title = b.title
  description : a.description = b.description
  keywords : a.keywords = b.keywords
  category : a.category = b.category
  domain : a.domain = b.domain
  url : a.url = b.url

/-- **Where two bookmarks agree, a signal that counts says one.** -/
theorem component_of_agree (h : Agree a b) (hs : 0 < weightOf a b s) (hv : component a b s = some v) : v = 1 := by
  cases s with
  | titleFuzzy =>
    simp only [component, plainTitle, h.title, Option.ite_none_left_eq_some, Option.some.injEq] at hv
    rw [← hv.2, closeness_self]
  | titleWords =>
    rw [component, h.title] at hv
    exact overlap_self hv
  | urlPath =>
    simp only [component, pathCloseness, h.url, Option.ite_none_right_eq_some] at hv
    split at hv
    · rename_i p q hp hq
      obtain rfl : p = q := Option.some.inj (hp.symm.trans hq)
      rw [← Option.some.inj hv.2, closeness_self]
    · cases hv.2
  | descriptionWords =>
    rw [component, h.description] at hv
    exact overlap_self hv
  | keywords =>
    rw [component, keywordSet, h.keywords] at hv
    exact overlap_self hv
  | category =>
    simp only [component, h.category, Option.ite_none_left_eq_some, Option.some.injEq] at hv
    rw [← hv.2]
    simp [truth]
  | domain =>
    -- being of one site is said, but does not count
    unfold weightOf weights at hs
    split at hs <;> exact absurd hs (by decide)

/-- The weight of what two bookmarks are compared by, in hundredths. -/
def totalWeight (K : Type) [Field K] [LinearOrder K] (a b : Bookmark) : K :=
  ((breakdown a b : List (Signal × K)).map fun p => (weightOf a b p.1 : K)).sum

theorem totalWeight_pos (h : (breakdown a b : List (Signal × K)) ≠ []) : 0 < totalWeight K a b := by
  have hpos : ∀ x ∈ (breakdown a b : List (Signal × K)).map fun p => (weightOf a b p.1 : K), 0 < x := by
    intro x hx
    obtain ⟨p, hp, rfl⟩ := List.mem_map.mp hx
    exact Nat.cast_pos.mpr (mem_breakdown.mp hp).1
  exact List.sum_pos _ hpos (by simpa using h)

omit [IsStrictOrderedRing K] in
theorem weightedMean_exact (es : List (Signal × K × K)) :
    weightedMean es = (es.map fun e => e.2.1 * e.2.2).sum / (es.map fun e => e.2.1).sum := by
  simp only [weightedMean, Scalar.sum_exact, Scalar.isZero_exact, Scalar.zero_exact]
  split
  · rename_i hzero
    rw [hzero, div_zero]
  · rfl

/-- **The score is the mean of what the signals say**, each with its part of their weight. -/
theorem score_eq_sum (a b : Bookmark) : (score a b : K) =
    ((breakdown a b).map fun p => weightOf a b p.1 / totalWeight K a b * p.2).sum := by
  have hcent : ∀ p : Signal × K, (weightOf a b p.1 : K) / (100 : Nat) = 1 / 100 * weightOf a b p.1 := fun p => by
    rw [Nat.cast_ofNat, div_eq_mul_one_div, mul_comm]
  calc (score a b : K)
      = ((breakdown a b).map fun p => 1 / 100 * ((weightOf a b p.1 : K) * p.2)).sum /
          ((breakdown a b : List (Signal × K)).map fun p => 1 / 100 * (weightOf a b p.1 : K)).sum := by
        simp only [score, evidence_eq, weightedMean_exact, List.map_map, Function.comp_def, Scalar.ratio_exact,
          hcent, mul_assoc]
    _ = ((breakdown a b).map fun p => (weightOf a b p.1 : K) * p.2).sum / totalWeight K a b := by
        rw [List.sum_map_mul_left, List.sum_map_mul_left, mul_div_mul_left _ _ (by norm_num), totalWeight]
    _ = ((breakdown a b).map fun p => weightOf a b p.1 / totalWeight K a b * p.2).sum := by
        rw [div_eq_mul_inv, mul_comm, ← List.sum_map_mul_left]
        simp only [div_eq_mul_inv, mul_comm, mul_left_comm]

/-- The parts of the weight make one. -/
theorem sum_parts (h : (breakdown a b : List (Signal × K)) ≠ []) :
    ((breakdown a b : List (Signal × K)).map fun p => weightOf a b p.1 / totalWeight K a b).sum = 1 := by
  have htotal : totalWeight K a b ≠ 0 := (totalWeight_pos h).ne'
  calc ((breakdown a b : List (Signal × K)).map fun p => weightOf a b p.1 / totalWeight K a b).sum
      = totalWeight K a b * (totalWeight K a b)⁻¹ := by
        simp only [div_eq_mul_inv, List.sum_map_mul_right, totalWeight]
    _ = 1 := mul_inv_cancel₀ htotal

theorem score_nonneg (a b : Bookmark) : 0 ≤ (score a b : K) := by
  rw [score, weightedMean_exact]
  refine div_nonneg (List.sum_nonneg fun x hx => ?_) (List.sum_nonneg fun x hx => ?_)
  · obtain ⟨e, he, rfl⟩ := List.mem_map.mp hx
    obtain ⟨_, hweight, hv⟩ := mem_evidence.mp he
    rw [hweight]
    exact mul_nonneg (div_nonneg (Nat.cast_nonneg _) (Nat.cast_nonneg _)) (component_nonneg hv)
  · obtain ⟨e, he, rfl⟩ := List.mem_map.mp hx
    obtain ⟨_, hweight, _⟩ := mem_evidence.mp he
    rw [hweight]
    exact div_nonneg (Nat.cast_nonneg _) (Nat.cast_nonneg _)

/-- **Bookmarks that agree have the score one**, unless nothing is said about them. -/
theorem score_of_agree (h : Agree a b) (hne : (breakdown a b : List (Signal × K)) ≠ []) : (score a b : K) = 1 := by
  have hones : ((breakdown a b : List (Signal × K)).map fun p => weightOf a b p.1 / totalWeight K a b * p.2) =
      (breakdown a b : List (Signal × K)).map fun p => weightOf a b p.1 / totalWeight K a b := by
    refine List.map_congr_left fun p hp => ?_
    obtain ⟨hpos, hv⟩ := mem_breakdown.mp hp
    rw [component_of_agree h hpos hv, mul_one]
  rw [score_eq_sum, hones, sum_parts hne]

/-- **The score is bounded, symmetric and reflexive.**  It lies between zero and one, and score and breakdown do not
depend on the order of the bookmarks.  The breakdown lists, each once, the signals that count and have data, with what
they say, between zero and one, and the score is the sum of that, each with its part of their weight, the parts making
one; it is zero if nothing is said.  Bookmarks that agree, and about which something is said, have the score one.  How
close two texts are is one less their distance, the least number of edits, as a part of the longer one. -/
theorem score_bounded_symmetric_reflexive (a b : Bookmark) :
    let parts : List (Signal × K) := breakdown a b
    (0 ≤ (score a b : K) ∧ (score a b : K) ≤ 1) ∧
      ((score b a : K) = score a b ∧ breakdown b a = parts) ∧
      ((parts.map Prod.fst).Nodup ∧
        (∀ s v, (s, v) ∈ parts ↔ 0 < weightOf a b s ∧ component a b s = some v) ∧
        (∀ s, (component a b s : Option K).isSome = true ↔ HasData a b s) ∧ ∀ p ∈ parts, 0 ≤ p.2 ∧ p.2 ≤ 1) ∧
      ((score a b : K) = (parts.map fun p => weightOf a b p.1 / totalWeight K a b * p.2).sum ∧
        (parts ≠ [] → (parts.map fun p => weightOf a b p.1 / totalWeight K a b).sum = 1)) ∧
      (parts = [] → (score a b : K) = 0) ∧
      (Agree a b → ∀ s, 0 < weightOf a b s → HasData a b s → (score a b : K) = 1) ∧
      ∀ cs bs, (closeness cs bs : K) =
          (if cs = [] ∧ bs = [] then 1 else 1 - (editDistance cs bs : K) / (max cs.length bs.length : Nat)) ∧
        IsLeast {n | Edits n cs bs} (editDistance cs bs) := by
  intro parts
  refine ⟨⟨score_nonneg a b, score_le_one a b⟩, ⟨score_comm b a, breakdown_comm b a⟩,
    ⟨nodup_breakdown a b, fun s v => mem_breakdown, isSome_component_iff, fun p hp => ?_⟩,
    ⟨score_eq_sum a b, sum_parts⟩, fun hnone => ?_, fun h s hs hdata => ?_,
    fun cs bs => ⟨closeness_eq cs bs, isLeast_editDistance cs bs⟩⟩
  · obtain ⟨_, hv⟩ := mem_breakdown.mp hp
    exact ⟨component_nonneg hv, component_le_one hv⟩
  · have hsum := score_eq_sum (K := K) a b
    rwa [show (breakdown a b : List (Signal × K)) = [] from hnone, List.map_nil, List.sum_nil] at hsum
  · obtain ⟨v, hv⟩ := Option.isSome_iff_exists.mp ((isSome_component_iff (α := K) s).mpr hdata)
    exact score_of_agree h (List.ne_nil_of_mem (mem_breakdown.mpr ⟨hs, hv⟩))

/-- Two bookmarks with one title and one address have the score one; without them nothing is said. -/
theorem score_bounded_symmetric_reflexive_sample :
    let a : Bookmark := { id := "a", title := "Lean", url := "https://x.org/lean/", domain := "x.org" }
    let b : Bookmark := { a with id := "b" }
    let c : Bookmark := { id := "c" }
    Agree a b ∧ HasData a b .urlPath ∧ (score a b : ℚ) = 1 ∧
      (breakdown c c : List (Signal × ℚ)) = [] ∧ (score c c : ℚ) = 0 := by
  intro a b c
  have hagree : Agree a b := ⟨rfl, rfl, rfl, rfl, rfl, rfl⟩
  have hsite : SameSite a b := ⟨by decide, by decide, rfl⟩
  have hdata : HasData a b .urlPath := ⟨hsite, by decide +kernel, by decide +kernel⟩
  have hcounts : 0 < weightOf a b .urlPath := by
    rw [weightOf, weights, if_pos (isSameDomain_iff.mpr hsite)]
    decide
  obtain ⟨_, _, _, _, _, hone, _⟩ := score_bounded_symmetric_reflexive (K := ℚ) a b
  obtain ⟨_, _, _, _, hzero, _⟩ := score_bounded_symmetric_reflexive (K := ℚ) c c
  have hnone : (breakdown c c : List (Signal × ℚ)) = [] := by decide +kernel
  exact ⟨hagree, hdata, hone hagree .urlPath hcounts hdata, hnone, hzero hnone⟩

end Exact

end Shelfmark.Similarity
