import Mathlib.Algebra.Order.BigOperators.Group.Finset
import Mathlib.Data.List.Forall2
import Shelfmark.Proofs.Order.Keyed
import Shelfmark.Proofs.Order.Reals
import Shelfmark.Proofs.Text.Words
import Shelfmark.Similarity.TermVector

/-!
# Term vectors

A term of a document has the weight that its share in the document and the documents that have it make up
(`weight?_ofWords`, `count_allTerms`).  With real numbers it is not negative, and zero exactly for a term of all
documents (`weighs_ofWords`).

The cosine of two vectors is a sum over any terms that comprise theirs (`cosine_eq_sum`), a term that a vector lacks
having the coordinate zero there.  So the cosine is symmetric, and by the inequality of Cauchy and Schwarz it lies
between zero and one.  Nowhere a number is divided by zero, and no logarithm of a number below one is taken
(`ofDocuments_checked`, `cosine_checked`).
-/

namespace Shelfmark.Similarity.TermVector

variable {α : Type} {t : String} {d : WordList} {documents : List WordList}

/-! ## Weights -/

/-- A term is listed once for each document that has it. -/
theorem count_allTerms (documents : List WordList) (t : String) :
    (allTerms documents).count t = documents.countP fun d => decide (t ∈ d.2) := by
  induction documents with
  | nil => rfl
  | cons d rest ih =>
    rw [allTerms, List.flatMap_cons, List.count_append, (Text.nodup_distinct d.2).count, List.countP_cons, Nat.add_comm]
    simp only [Text.mem_distinct, decide_eq_true_eq]
    exact congrArg (· + _) ih

/-- The number of documents that have a term. -/
def documentsWith (documents : List WordList) (t : String) : Nat := documents.countP fun d => decide (t ∈ d.2)

theorem documentsWith_pos (hd : d ∈ documents) (ht : t ∈ d.2) : 0 < documentsWith documents t :=
  List.countP_pos_iff.mpr ⟨d, hd, by simpa using ht⟩

theorem documentsWith_le (documents : List WordList) (t : String) : documentsWith documents t ≤ documents.length :=
  List.countP_le_length

theorem documentsWith_eq_length : documentsWith documents t = documents.length ↔ ∀ d ∈ documents, t ∈ d.2 := by
  simp [documentsWith, List.countP_eq_length]

section Lookup

variable [AnalyticScalar α] {count : Nat} {terms : List String}

theorem weights_ofWords (count : Nat) (terms : List String) (d : WordList) :
    (ofWords count terms d : TermVector α).weights = (Text.distinct d.2).map fun t =>
      (t, Scalar.ratio (d.2.count t) d.2.length * rarity count terms t) := by
  simp [ofWords, Text.tally]

/-- **The words of a document have weights.** -/
theorem weight?_ofWords (count : Nat) (terms : List String) (d : WordList) (t : String) :
    (ofWords count terms d : TermVector α).weight? t =
      if t ∈ d.2 then some (Scalar.ratio (d.2.count t) d.2.length * rarity count terms t) else none := by
  rw [weight?, weights_ofWords, find?_map_key]
  simp only [Text.mem_distinct]

theorem nodup_terms_ofWords (count : Nat) (terms : List String) (d : WordList) :
    ((ofWords count terms d : TermVector α).weights.map Prod.fst).Nodup := by
  rw [weights_ofWords, List.map_map]
  simpa [Function.comp_def] using Text.nodup_distinct d.2

end Lookup

/-! ## Exact weights -/

section Exact

/-- The vector has the weights of the words of a document among some documents: the share of the word in the document
times the logarithm of the number of documents for each one that has the word. -/
structure Weighs (documents : List WordList) (d : WordList) (v : TermVector ℝ) : Prop where
  id : v.id = d.1
  weight : ∀ t ∈ d.2,
    v.weight? t = some (d.2.count t / d.2.length * Real.log (documents.length / documentsWith documents t))
  missing : ∀ t ∉ d.2, v.weight? t = none
  nonneg : ∀ t x, v.weight? t = some x → 0 ≤ x
  eq_zero_iff : ∀ t x, v.weight? t = some x → (x = 0 ↔ ∀ e ∈ documents, t ∈ e.2)

/-- There are at least as many documents as there are with a term. -/
theorem one_le_rarity (hd : d ∈ documents) (ht : t ∈ d.2) :
    (1 : ℝ) ≤ documents.length / documentsWith documents t := by
  have hpos : (0 : ℝ) < documentsWith documents t := Nat.cast_pos.mpr (documentsWith_pos hd ht)
  rw [le_div_iff₀ hpos, one_mul]
  exact Nat.cast_le.mpr (documentsWith_le documents t)

theorem log_rarity_eq_zero_iff (hd : d ∈ documents) (ht : t ∈ d.2) :
    Real.log (documents.length / documentsWith documents t) = 0 ↔ ∀ e ∈ documents, t ∈ e.2 := by
  have hpos : (0 : ℝ) < documentsWith documents t := Nat.cast_pos.mpr (documentsWith_pos hd ht)
  have hone := one_le_rarity hd ht
  rw [← documentsWith_eq_length]
  constructor
  · intro hlog
    rcases Real.log_eq_zero.mp hlog with h | h | h
    · exact absurd h (by linarith)
    · exact (Nat.cast_inj.mp ((div_eq_one_iff_eq hpos.ne').mp h)).symm
    · exact absurd h (by linarith)
  · intro hall
    rw [hall, div_self (hall ▸ hpos.ne'), Real.log_one]

/-- **The weights of a document are not negative, and zero exactly for terms of all documents.** -/
theorem weighs_ofWords (hd : d ∈ documents) :
    Weighs documents d (ofWords documents.length (allTerms documents) d) := by
  have hweight : ∀ t ∈ d.2, (ofWords documents.length (allTerms documents) d : TermVector ℝ).weight? t =
      some (d.2.count t / d.2.length * Real.log (documents.length / documentsWith documents t)) := by
    intro t ht
    rw [weight?_ofWords, if_pos ht, rarity, count_allTerms]
    rfl
  have hnone : ∀ t ∉ d.2, (ofWords documents.length (allTerms documents) d : TermVector ℝ).weight? t = none :=
    fun t ht => by rw [weight?_ofWords, if_neg ht]
  have hword : ∀ t x, (ofWords documents.length (allTerms documents) d : TermVector ℝ).weight? t = some x →
      t ∈ d.2 ∧ d.2.count t / d.2.length * Real.log (documents.length / documentsWith documents t) = x := by
    intro t x hx
    by_cases ht : t ∈ d.2
    · exact ⟨ht, Option.some.inj ((hweight t ht).symm.trans hx)⟩
    · cases (hnone t ht).symm.trans hx
  refine ⟨rfl, hweight, hnone, fun t x hx => ?_, fun t x hx => ?_⟩
  · obtain ⟨ht, rfl⟩ := hword t x hx
    exact mul_nonneg (div_nonneg (Nat.cast_nonneg _) (Nat.cast_nonneg _)) (Real.log_nonneg (one_le_rarity hd ht))
  · obtain ⟨ht, rfl⟩ := hword t x hx
    have hshare : (d.2.count t : ℝ) / d.2.length ≠ 0 := by
      refine div_ne_zero (Nat.cast_ne_zero.mpr ?_) (Nat.cast_ne_zero.mpr ?_)
      · exact (List.count_pos_iff.mpr ht).ne'
      · exact (List.length_pos_of_mem ht).ne'
    rw [mul_eq_zero, or_iff_right hshare, log_rarity_eq_zero_iff hd ht]

end Exact

/-! ## Cosines -/

section Cosine

variable {v w : TermVector ℝ} {S : Finset String}

/-- The coordinate of a vector for a term: its weight, or zero if the document does not have it. -/
def coordinate (v : TermVector ℝ) (t : String) : ℝ := (v.weight? t).getD 0

/-- The vector has one weight for each of its terms, none of them negative, and the length that they make up. -/
structure IsProper (v : TermVector ℝ) : Prop where
  nodup : (v.weights.map Prod.fst).Nodup
  nonneg : ∀ p ∈ v.weights, 0 ≤ p.2
  magnitude : v.magnitude = √(v.weights.map fun p => p.2 * p.2).sum

theorem weight?_of_mem (hkeys : (v.weights.map Prod.fst).Nodup) {p : String × ℝ} (hp : p ∈ v.weights) :
    v.weight? p.1 = some p.2 := by
  rw [weight?, (find?_key_eq_some_iff hkeys).mpr ⟨hp, rfl⟩, Option.map_some]

theorem mem_of_weight? {x : ℝ} (h : v.weight? t = some x) : (t, x) ∈ v.weights := by
  obtain ⟨p, hp, rfl⟩ := Option.map_eq_some_iff.mp h
  have hkey : p.1 = t := by simpa using List.find?_some hp
  exact hkey ▸ List.mem_of_find?_eq_some hp

theorem coordinate_of_mem (hv : v.IsProper) {p : String × ℝ} (hp : p ∈ v.weights) : v.coordinate p.1 = p.2 := by
  rw [coordinate, weight?_of_mem hv.nodup hp, Option.getD_some]

theorem weight?_of_coordinate_ne_zero (h : v.coordinate t ≠ 0) : v.weight? t = some (v.coordinate t) := by
  cases hx : v.weight? t with
  | none => exact absurd (by rw [coordinate, hx, Option.getD_none]) h
  | some x => rw [coordinate, hx, Option.getD_some]

theorem coordinate_of_missing (h : ∀ p ∈ v.weights, p.1 ≠ t) : v.coordinate t = 0 := by
  by_contra hne
  exact h _ (mem_of_weight? (weight?_of_coordinate_ne_zero hne)) rfl

theorem coordinate_nonneg (hv : v.IsProper) (t : String) : 0 ≤ v.coordinate t := by
  by_cases hne : v.coordinate t = 0
  · exact hne.ge
  · exact hv.nonneg _ (mem_of_weight? (weight?_of_coordinate_ne_zero hne))

/-- A sum over the weights of a vector is one over any terms that comprise its own. -/
theorem sum_weights (hv : v.IsProper) (hS : ∀ p ∈ v.weights, p.1 ∈ S) {f : String → ℝ → ℝ} (hf : ∀ t, f t 0 = 0) :
    (v.weights.map fun p => f p.1 p.2).sum = ∑ t ∈ S, f t (v.coordinate t) := by
  calc (v.weights.map fun p => f p.1 p.2).sum
      = ((v.weights.map Prod.fst).map fun t => f t (v.coordinate t)).sum := by
        rw [List.map_map]
        refine congrArg List.sum (List.map_congr_left fun p hp => ?_)
        rw [Function.comp_apply, coordinate_of_mem hv hp]
    _ = ∑ t ∈ (v.weights.map Prod.fst).toFinset, f t (v.coordinate t) := (List.sum_toFinset _ hv.nodup).symm
    _ = ∑ t ∈ S, f t (v.coordinate t) := by
        refine Finset.sum_subset (fun t ht => ?_) fun t _ ht => ?_
        · obtain ⟨p, hp, rfl⟩ := List.mem_map.mp (List.mem_toFinset.mp ht)
          exact hS p hp
        · rw [coordinate_of_missing fun p hp he => ht (List.mem_toFinset.mpr (List.mem_map.mpr ⟨p, hp, he⟩)), hf]

theorem magnitude_eq (hv : v.IsProper) (hS : ∀ p ∈ v.weights, p.1 ∈ S) :
    v.magnitude = √(∑ t ∈ S, v.coordinate t ^ 2) := by
  rw [hv.magnitude, sum_weights hv hS (f := fun _ x => x * x) fun _ => mul_zero 0]
  simp only [sq]

/-- The products over the terms that two vectors share. -/
theorem sum_shared (v w : TermVector ℝ) : ((shared v w).map fun p => p.2.1 * p.2.2).sum =
    (v.weights.map fun p => p.2 * w.coordinate p.1).sum := by
  rw [shared, ((List.mergeSort_perm _ _).map _).sum_eq]
  induction v.weights with
  | nil => rfl
  | cons p rest ih =>
    rw [List.filterMap_cons, List.map_cons, List.sum_cons, ← ih, coordinate]
    cases hy : w.weight? p.1 with
    | none => simp [hy]
    | some y => simp [hy]

/-- **The cosine is a sum over any terms that comprise those of both vectors.** -/
theorem cosine_eq_sum (hv : v.IsProper) (hS : ∀ p ∈ v.weights, p.1 ∈ S) :
    v.cosine w = (∑ t ∈ S, v.coordinate t * w.coordinate t) / (v.magnitude * w.magnitude) := by
  rw [← sum_weights hv hS (f := fun t x => x * w.coordinate t) fun _ => zero_mul _, ← sum_shared]
  simp only [cosine, Scalar.sum_exact, Scalar.zero_exact]
  split
  · rename_i hzero
    simp only [Bool.or_eq_true, Scalar.isZero_exact, List.isEmpty_iff] at hzero
    rcases hzero with (hnone | hleft) | hright
    · simp [hnone]
    · simp [hleft]
    · simp [hright]
  · rfl

/-- The terms of two vectors. -/
def jointTerms (v w : TermVector ℝ) : Finset String :=
  (v.weights.map Prod.fst).toFinset ∪ (w.weights.map Prod.fst).toFinset

theorem mem_jointTerms_left {p : String × ℝ} (hp : p ∈ v.weights) : p.1 ∈ jointTerms v w :=
  Finset.mem_union_left _ (List.mem_toFinset.mpr (List.mem_map_of_mem hp))

theorem mem_jointTerms_right {p : String × ℝ} (hp : p ∈ w.weights) : p.1 ∈ jointTerms v w :=
  Finset.mem_union_right _ (List.mem_toFinset.mpr (List.mem_map_of_mem hp))

/-- **The cosine is symmetric.** -/
theorem cosine_comm (hv : v.IsProper) (hw : w.IsProper) : v.cosine w = w.cosine v := by
  rw [cosine_eq_sum hv fun _ => mem_jointTerms_left (w := w), cosine_eq_sum hw fun _ => mem_jointTerms_right (v := v),
    mul_comm v.magnitude]
  simp only [mul_comm]

theorem magnitude_nonneg (hv : v.IsProper) : 0 ≤ v.magnitude := hv.magnitude ▸ Real.sqrt_nonneg _

theorem cosine_nonneg (hv : v.IsProper) (hw : w.IsProper) : 0 ≤ v.cosine w := by
  rw [cosine_eq_sum hv fun _ => mem_jointTerms_left (w := w)]
  refine div_nonneg (Finset.sum_nonneg fun t _ => ?_) (mul_nonneg (magnitude_nonneg hv) (magnitude_nonneg hw))
  exact mul_nonneg (coordinate_nonneg hv t) (coordinate_nonneg hw t)

/-- **The cosine is one at most**, by the inequality of Cauchy and Schwarz. -/
theorem cosine_le_one (hv : v.IsProper) (hw : w.IsProper) : v.cosine w ≤ 1 := by
  rw [cosine_eq_sum hv fun _ => mem_jointTerms_left (w := w)]
  refine div_le_one_of_le₀ ?_ (mul_nonneg (magnitude_nonneg hv) (magnitude_nonneg hw))
  rw [magnitude_eq hv fun _ => mem_jointTerms_left (w := w), magnitude_eq hw fun _ => mem_jointTerms_right (v := v)]
  exact Real.sum_mul_le_sqrt_mul_sqrt _ _ _

/-- **A vector that has a length has the cosine one with itself.** -/
theorem cosine_self (hv : v.IsProper) (h : v.magnitude ≠ 0) : v.cosine v = 1 := by
  have hsquares : 0 ≤ ∑ t ∈ jointTerms v v, v.coordinate t ^ 2 := Finset.sum_nonneg fun t _ => sq_nonneg _
  have hlength : v.magnitude * v.magnitude = ∑ t ∈ jointTerms v v, v.coordinate t * v.coordinate t := by
    rw [magnitude_eq hv fun _ => mem_jointTerms_left (w := v), Real.mul_self_sqrt hsquares]
    simp only [sq]
  rw [cosine_eq_sum hv fun _ => mem_jointTerms_left (w := v), ← hlength, div_self (mul_ne_zero h h)]

theorem magnitude_pos (hv : v.IsProper) (h : 0 < v.coordinate t) : 0 < v.magnitude := by
  rw [magnitude_eq hv fun _ => mem_jointTerms_left (w := v), Real.sqrt_pos]
  have ht : t ∈ jointTerms v v := by
    by_contra hmissing
    have hzero : v.coordinate t = 0 :=
      coordinate_of_missing fun p hp he => hmissing (he ▸ mem_jointTerms_left hp)
    exact h.ne' hzero
  exact Finset.sum_pos' (fun t _ => sq_nonneg _) ⟨t, ht, pow_pos h 2⟩

/-- **The cosine is zero exactly if no term has a positive weight in both vectors.** -/
theorem cosine_eq_zero_iff (hv : v.IsProper) (hw : w.IsProper) :
    v.cosine w = 0 ↔ ∀ t x y, v.weight? t = some x → w.weight? t = some y → ¬(0 < x ∧ 0 < y) := by
  have hproduct : ∀ t, 0 ≤ v.coordinate t * w.coordinate t := fun t =>
    mul_nonneg (coordinate_nonneg hv t) (coordinate_nonneg hw t)
  rw [cosine_eq_sum hv fun _ => mem_jointTerms_left (w := w)]
  constructor
  · rintro hzero t x y hx hy ⟨hxpos, hypos⟩
    have hvt : v.coordinate t = x := by rw [coordinate, hx, Option.getD_some]
    have hwt : w.coordinate t = y := by rw [coordinate, hy, Option.getD_some]
    have ht : t ∈ jointTerms v w := mem_jointTerms_left (mem_of_weight? hx)
    have hsum : 0 < ∑ t ∈ jointTerms v w, v.coordinate t * w.coordinate t :=
      Finset.sum_pos' (fun t _ => hproduct t) ⟨t, ht, by rw [hvt, hwt]; exact mul_pos hxpos hypos⟩
    have hlengths : 0 < v.magnitude * w.magnitude :=
      mul_pos (magnitude_pos hv (hvt ▸ hxpos)) (magnitude_pos hw (hwt ▸ hypos))
    exact (div_pos hsum hlengths).ne' hzero
  · intro hnone
    refine div_eq_zero_iff.mpr (Or.inl (Finset.sum_eq_zero fun t _ => ?_))
    by_contra hne
    obtain ⟨hx, hy⟩ := mul_ne_zero_iff.mp hne
    exact hnone t _ _ (weight?_of_coordinate_ne_zero hx) (weight?_of_coordinate_ne_zero hy)
      ⟨(coordinate_nonneg hv t).lt_of_ne' hx, (coordinate_nonneg hw t).lt_of_ne' hy⟩

/-- Vectors of documents are proper. -/
theorem isProper_of_mem (hv : v ∈ (ofDocuments documents : List (TermVector ℝ))) : v.IsProper := by
  obtain ⟨d, hd, rfl⟩ := List.mem_map.mp hv
  have hnodup := nodup_terms_ofWords (α := ℝ) documents.length (allTerms documents) d
  exact ⟨hnodup, fun p hp => (weighs_ofWords hd).nonneg p.1 p.2 (weight?_of_mem hnodup hp),
    congrArg Real.sqrt (Scalar.sum_exact _)⟩

end Cosine

/-! ## Checked vectors -/

section Checking

open Checked (of)

/-- The vector with other numbers. -/
def map {β : Type} (f : α → β) (v : TermVector α) : TermVector β :=
  ⟨v.id, v.weights.map fun p => (p.1, f p.2), f v.magnitude⟩

/-- **Where documents have words, the weights and the length of a vector are defined.** -/
theorem ofWords_checked (hd : d ∈ documents) :
    (ofWords documents.length (allTerms documents) d : TermVector Checked) =
      (ofWords documents.length (allTerms documents) d).map of := by
  have hweights : (ofWords documents.length (allTerms documents) d : TermVector Checked).weights =
      (ofWords documents.length (allTerms documents) d).weights.map fun p => (p.1, of p.2) := by
    rw [weights_ofWords, weights_ofWords, List.map_map]
    refine List.map_congr_left fun t ht => ?_
    rw [Text.mem_distinct] at ht
    have hlength : d.2.length ≠ 0 := (List.length_pos_of_mem ht).ne'
    have hcount : (allTerms documents).count t ≠ 0 := by
      rw [count_allTerms]
      exact (documentsWith_pos hd ht).ne'
    have hone : (1 : ℝ) ≤ Scalar.ratio documents.length ((allTerms documents).count t) := by
      rw [count_allTerms]
      exact one_le_rarity hd ht
    rw [rarity, Checked.ratio_of hlength, Checked.ratio_of hcount, Checked.log_of hone, Checked.mul_of]
    rfl
  have hsquares : (0 : ℝ) ≤ ((ofWords documents.length (allTerms documents) d).weights.map fun p => p.2 * p.2).sum :=
    List.sum_nonneg fun x hx => by
      obtain ⟨p, _, rfl⟩ := List.mem_map.mp hx
      exact mul_self_nonneg _
  refine congrArg₂ (TermVector.mk d.1) hweights ?_
  show AnalyticScalar.sqrt (Scalar.sum
    ((ofWords documents.length (allTerms documents) d : TermVector Checked).weights.map fun p => p.2 * p.2)) =
      of (AnalyticScalar.sqrt (Scalar.sum
        ((ofWords documents.length (allTerms documents) d : TermVector ℝ).weights.map fun p => p.2 * p.2)))
  rw [hweights, List.map_map, AnalyticScalar.sqrt_real, Scalar.sum_exact, ← Checked.sqrt_of hsquares,
    ← Checked.sum_of, List.map_map]
  rfl

theorem ofDocuments_checked (documents : List WordList) :
    (ofDocuments documents : List (TermVector Checked)) = (ofDocuments documents).map (map of) := by
  rw [ofDocuments, ofDocuments, List.map_map]
  exact List.map_congr_left fun d hd => ofWords_checked hd

theorem weight?_map {β : Type} (f : α → β) (v : TermVector α) (t : String) :
    (v.map f).weight? t = (v.weight? t).map f := by
  simp [weight?, map, List.find?_map, Function.comp_def]

theorem shared_map {β : Type} (f : α → β) (v w : TermVector α) :
    (v.map f).shared (w.map f) = (v.shared w).map fun p => (p.1, f p.2.1, f p.2.2) := by
  have hpairs : (v.map f).weights.filterMap (fun p => ((w.map f).weight? p.1).map fun y => (p.1, p.2, y)) =
      (v.weights.filterMap fun p => (w.weight? p.1).map fun y => (p.1, p.2, y)).map
        fun p => (p.1, f p.2.1, f p.2.2) := by
    simp only [weight?_map, List.map_filterMap, Option.map_map, Function.comp_def]
    exact List.filterMap_map
  refine (congrArg (List.mergeSort · _) hpairs).trans ?_
  exact (List.map_mergeSort (f := fun p : String × α × α => (p.1, f p.2.1, f p.2.2)) fun _ _ _ _ => rfl).symm

/-- **The cosine is defined.** -/
theorem cosine_checked (v w : TermVector ℝ) : (v.map of).cosine (w.map of) = of (v.cosine w) := by
  have hsum : Scalar.sum (((v.map of).shared (w.map of)).map fun p => p.2.1 * p.2.2) =
      of (Scalar.sum ((v.shared w).map fun p => p.2.1 * p.2.2)) := by
    rw [shared_map, Scalar.sum_exact, ← Checked.sum_of, List.map_map, List.map_map]
    rfl
  have hlengths : (((v.map of).shared (w.map of)).isEmpty || Scalar.isZero (of v.magnitude) ||
      Scalar.isZero (of w.magnitude)) =
        ((v.shared w).isEmpty || Scalar.isZero v.magnitude || Scalar.isZero w.magnitude) := by
    rw [shared_map, List.isEmpty_map, Checked.isZero_of, Checked.isZero_of]
  show (if (((v.map of).shared (w.map of)).isEmpty || Scalar.isZero (of v.magnitude) ||
      Scalar.isZero (of w.magnitude)) = true then Scalar.zero
    else Scalar.sum (((v.map of).shared (w.map of)).map fun p => p.2.1 * p.2.2) / (of v.magnitude * of w.magnitude)) =
      of (v.cosine w)
  rw [hlengths, hsum, cosine]
  split
  · rw [Checked.zero_of, Scalar.zero_exact]
  · rename_i hcosine
    simp only [Bool.or_eq_true, Scalar.isZero_exact, not_or] at hcosine
    rw [Checked.mul_of, Checked.div_of (mul_ne_zero hcosine.1.2 hcosine.2)]

end Checking

/-! ## The vectors of some documents -/

/-- **Vectors and cosines are well behaved.**  Each document has a vector with a weight for each of its words and no
other term, not negative, and zero exactly for the terms of all documents.  Cosines are symmetric and lie between zero
and one; they are one for a vector that has a length with itself, and zero exactly if no term has a positive weight in
both vectors.  Checked numbers give the same vectors and cosines, so everywhere no number is divided by zero and no
logarithm of a number below one is taken. -/
theorem ofDocuments_wellBehaved (documents : List WordList) :
    let vs : List (TermVector ℝ) := ofDocuments documents
    List.Forall₂ (Weighs documents) documents vs ∧
      (∀ v ∈ vs, ∀ w ∈ vs, v.cosine w = w.cosine v ∧ 0 ≤ v.cosine w ∧ v.cosine w ≤ 1 ∧
        (v.cosine w = 0 ↔ ∀ t x y, v.weight? t = some x → w.weight? t = some y → ¬(0 < x ∧ 0 < y))) ∧
      (∀ v ∈ vs, v.magnitude ≠ 0 → v.cosine v = 1) ∧
      (ofDocuments documents : List (TermVector Checked)) = vs.map (map Checked.of) ∧
      ∀ v ∈ vs, ∀ w ∈ vs, (v.map Checked.of).cosine (w.map Checked.of) = Checked.of (v.cosine w) := by
  intro vs
  refine ⟨List.forall₂_map_right_iff.mpr (List.forall₂_same.mpr fun d hd => weighs_ofWords hd),
    fun v hv w hw => ?_, fun v hv hlength => cosine_self (isProper_of_mem hv) hlength,
    ofDocuments_checked documents, fun v _ w _ => cosine_checked v w⟩
  have hv' := isProper_of_mem hv
  have hw' := isProper_of_mem hw
  exact ⟨cosine_comm hv' hw', cosine_nonneg hv' hw', cosine_le_one hv' hw', cosine_eq_zero_iff hv' hw'⟩

/-- A term of all documents weighs nothing, so a document without another one has the cosine zero with any. -/
theorem ofDocuments_wellBehaved_sample :
    let documents : List WordList := [("a", ["rust", "lean"]), ("b", ["rust"])]
    ∃ v w : TermVector ℝ, ofDocuments documents = [v, w] ∧ w.weight? "rust" = some 0 ∧ v.cosine w = 0 ∧
      w.cosine v = 0 := by
  intro documents
  obtain ⟨vs, hvs⟩ : ∃ vs, (ofDocuments documents : List (TermVector ℝ)) = vs := ⟨_, rfl⟩
  obtain ⟨hweights, hcosines, _⟩ := ofDocuments_wellBehaved documents
  rw [hvs] at hweights hcosines
  obtain ⟨v, _, _, hrest, rfl⟩ := List.forall₂_cons_left_iff.mp hweights
  obtain ⟨w, _, hw, hnil, rfl⟩ := List.forall₂_cons_left_iff.mp hrest
  obtain rfl := List.forall₂_nil_left_iff.mp hnil
  obtain ⟨hcomm, _, _, hzero⟩ := hcosines v (by simp) w (by simp)
  have hnothing : ∀ t y, w.weight? t = some y → y = 0 := by
    intro t y hy
    have ht : t = "rust" := by
      by_contra hne
      cases hy.symm.trans (hw.missing t (by simpa using hne))
    refine (hw.eq_zero_iff t y hy).mpr fun d hd => ?_
    simp only [documents, List.mem_cons, List.not_mem_nil, or_false] at hd
    rcases hd with rfl | rfl <;> simp [ht]
  have hcosine : v.cosine w = 0 := hzero.mpr fun t x y _ hy hpos => hpos.2.ne' (hnothing t y hy)
  have hrust := hw.weight "rust" (by simp)
  exact ⟨v, w, hvs, (hnothing _ _ hrust) ▸ hrust, hcosine, hcomm ▸ hcosine⟩

end Shelfmark.Similarity.TermVector
