import Shelfmark.Proofs.Order.Keyed
import Shelfmark.Proofs.Similarity.Places
import Shelfmark.Proofs.Similarity.Records
import Shelfmark.Proofs.Similarity.Vectors

/-!
# Related bookmarks

The target and the bookmarks that it is compared with are those of the corpus in another order (`perm_target_others`).
Weights do not depend on the order of the documents (`vectorAmong_perm`), so the vectors are those among the whole
corpus (`related_eq`), and the likeness that the pairs of similar bookmarks have (`likeness`) is the one that the
related bookmarks are ranked by (`relatedness`).

So the related bookmarks are the best ones, wherever the target stands (`related_best`).
-/

namespace Shelfmark.Similarity

/-! ## The order of the documents -/

section Order

variable {α : Type} [AnalyticScalar α] {bs cs : List Bookmark}

namespace TermVector

theorem allTerms_perm {documents documents' : List WordList} (h : documents.Perm documents') :
    (allTerms documents).Perm (allTerms documents') :=
  h.flatMap_right _

/-- Terms are counted, in whatever order they are listed. -/
theorem ofWords_perm {terms terms' : List String} (h : terms.Perm terms') (count : Nat) (d : WordList) :
    (ofWords count terms d : TermVector α) = ofWords count terms' d := by
  simp only [ofWords, rarity, h.count_eq]

end TermVector

/-- **A bookmark has the same vector among the same bookmarks in another order.** -/
theorem vectorAmong_perm (h : cs.Perm bs) (b : Bookmark) : (vectorAmong cs b : TermVector α) = vectorAmong bs b := by
  have hdocuments : ((withWords cs).map fun d => (d.1.id, d.2)).Perm ((withWords bs).map fun d => (d.1.id, d.2)) :=
    ((h.map _).filter _).map _
  rw [vectorAmong, vectorAmong, hdocuments.length_eq, TermVector.ofWords_perm (TermVector.allTerms_perm hdocuments)]

end Order

/-! ## The target and the others -/

section Target

variable {α : Type} [AnalyticScalar α] {bs : List Bookmark} {target : Bookmark}

/-- The bookmarks other than the target. -/
def others (target : Bookmark) (bs : List Bookmark) : List Bookmark := bs.filter fun b => b.id != target.id

theorem mem_others (hids : (bs.map (·.id)).Nodup) (htarget : target ∈ bs) {b : Bookmark} :
    b ∈ others target bs ↔ b ∈ bs ∧ b ≠ target :=
  mem_filter_key_ne hids htarget

/-- **The target and the others are the bookmarks in another order.** -/
theorem perm_target_others (hids : (bs.map (·.id)).Nodup) (htarget : target ∈ bs) :
    (target :: others target bs).Perm bs :=
  perm_cons_filter_key_ne hids htarget

/-- The vectors of the target and the others are those among all bookmarks. -/
theorem vectors_target_others (hids : (bs.map (·.id)).Nodup) (htarget : target ∈ bs)
    (hwords : target.weightedWords ≠ []) :
    (vectors ((target, target.weightedWords) :: withWords (others target bs)) : List (Bookmark × TermVector α)) =
      (target, vectorAmong bs target) :: ((others target bs).filter hasWords).map fun b => (b, vectorAmong bs b) := by
  have hdocuments : (target, target.weightedWords) :: withWords (others target bs) =
      withWords (target :: others target bs) := by
    simp [withWords, hwords]
  have hkept : (target :: others target bs).filter hasWords = target :: (others target bs).filter hasWords :=
    List.filter_cons_of_pos (hasWords_iff.mpr hwords)
  simp only [hdocuments, vectors_eq, hkept, List.map_cons, vectorAmong_perm (perm_target_others hids htarget)]

/-- **The others are compared with the target by the vectors among all bookmarks.** -/
theorem related_eq (hids : (bs.map (·.id)).Nodup) (htarget : target ∈ bs) (hwords : target.weightedWords ≠ [])
    (limit : Int) : (related bs target.id limit : List (Related α)) =
      upTo limit (Scalar.descending (·.similarity) ((((others target bs).filter hasWords).map fun b =>
        relatedTo target (vectorAmong bs target) (b, vectorAmong bs b)).filter
          fun r => Scalar.lt (Scalar.ratio 1 10) r.similarity)) := by
  have hfound : (bs.find? fun b => b.id == target.id) = some target :=
    (find?_key_eq_some_iff hids).mpr ⟨htarget, rfl⟩
  have hempty : target.weightedWords.isEmpty = false := by simpa using hwords
  have hothers : (bs.filter fun b => b.id != target.id) = others target bs := rfl
  simp only [related, hfound, hempty, Bool.false_eq_true, if_false, hothers,
    vectors_target_others hids htarget hwords, List.map_map, Function.comp_def]

end Target

/-! ## Likeness -/

section Likeness

variable {bs : List Bookmark} {a b c : Bookmark}

/-- The cosine of the vectors of two bookmarks among some bookmarks. -/
noncomputable def likeness (bs : List Bookmark) (a b : Bookmark) : ℝ := (vectorAmong bs a).cosine (vectorAmong bs b)

/-- A bookmark with words is one of the documents. -/
theorem mem_documents (hb : b ∈ bs) (hwords : b.weightedWords ≠ []) :
    (b.id, b.weightedWords) ∈ (withWords bs).map fun d => (d.1.id, d.2) := by
  refine List.mem_map.mpr ⟨(b, b.weightedWords), ?_, rfl⟩
  rw [withWords_eq]
  exact List.mem_map.mpr ⟨b, List.mem_filter.mpr ⟨hb, hasWords_iff.mpr hwords⟩, rfl⟩

theorem isProper_vectorAmong (hb : b ∈ bs) (hwords : b.weightedWords ≠ []) :
    (vectorAmong bs b : TermVector ℝ).IsProper :=
  TermVector.isProper_of_mem (List.mem_map.mpr ⟨_, mem_documents hb hwords, rfl⟩)

theorem likeness_comm (ha : a ∈ bs) (hb : b ∈ bs) (hawords : a.weightedWords ≠ []) (hbwords : b.weightedWords ≠ []) :
    likeness bs a b = likeness bs b a :=
  TermVector.cosine_comm (isProper_vectorAmong ha hawords) (isProper_vectorAmong hb hbwords)

/-- Bookmarks without a common word are not alike. -/
theorem likeness_of_disjoint (h : ∀ t ∈ a.weightedWords, t ∉ b.weightedWords) : likeness bs a b = 0 :=
  (cosine_of_disjoint h).trans Scalar.zero_exact

/-- **Bookmarks with the same words are alike** if not all bookmarks have one of these words. -/
theorem likeness_of_sameWords {t : String} (ha : a ∈ bs) (hwords : b.weightedWords = a.weightedWords)
    (ht : t ∈ a.weightedWords) (hc : c ∈ bs) (hcwords : c.weightedWords ≠ []) (hrare : t ∉ c.weightedWords) :
    likeness bs a b = 1 := by
  have hawords : a.weightedWords ≠ [] := List.ne_nil_of_mem ht
  have hweighs := TermVector.weighs_ofWords (mem_documents ha hawords)
  have hweight := hweighs.weight t ht
  have hpos : 0 < (vectorAmong bs a : TermVector ℝ).coordinate t := by
    rw [TermVector.coordinate, vectorAmong, hweight, Option.getD_some]
    refine (hweighs.nonneg t _ hweight).lt_of_ne' fun hzero => ?_
    exact hrare ((hweighs.eq_zero_iff t _ hweight).mp hzero _ (mem_documents hc hcwords))
  have hproper := isProper_vectorAmong ha hawords
  -- the vectors differ in nothing but their ids
  have hsame : likeness bs a b = likeness bs a a := by
    rw [likeness, likeness, vectorAmong, vectorAmong, hwords]
    rfl
  rw [hsame]
  exact TermVector.cosine_self hproper (TermVector.magnitude_pos hproper hpos).ne'

/-- The pair is one of two bookmarks, in whatever order. -/
def SimilarPair.Joins {α : Type} (p : SimilarPair α) (a b : Bookmark) : Prop :=
  p.first = a ∧ p.second = b ∨ p.first = b ∧ p.second = a

/-- **The similarity of a pair is the likeness of its bookmarks.** -/
theorem similarity_of_mem_similarPairs {t : ℝ} {n : Nat} {p : SimilarPair ℝ} (hp : p ∈ similarPairs bs t n)
    (hjoins : p.Joins a b) : p.similarity = likeness bs a b := by
  rw [similarPairs_eq_map] at hp
  obtain ⟨q, hq, rfl⟩ := List.mem_map.mp hp
  have hqualifies : Qualifies t q :=
    mem_qualifyingPlaces.mp (List.mem_of_mem_take ((best_foundPlaces bs t n).subset q hq))
  rcases hjoins with ⟨rfl, rfl⟩ | ⟨rfl, rfl⟩
  · rfl
  · exact likeness_comm (List.get_mem _ _) (List.get_mem _ _) hqualifies.words.1 hqualifies.words.2

/-- A search that looks for enough pairs finds all that qualify. -/
theorem exists_mem_similarPairs {α : Type} [AnalyticScalar α] {t : α} {p : Places bs} (hp : Qualifies t p) :
    ∃ n : Nat, pairAt bs p ∈ similarPairs bs t n := by
  have hall : (qualifyingPlaces bs t).take (surplus * (qualifyingPlaces bs t).length) = qualifyingPlaces bs t :=
    List.take_of_length_le (by rw [surplus]; omega)
  have hsorted : (Scalar.descending (similarityAt α bs) (qualifyingPlaces bs t)).Perm (qualifyingPlaces bs t) :=
    List.mergeSort_perm _ _
  refine ⟨(qualifyingPlaces bs t).length, ?_⟩
  rw [similarPairs_eq_map, foundPlaces, hall, List.take_of_length_le hsorted.length_eq.le]
  exact List.mem_map_of_mem (hsorted.mem_iff.mpr (mem_qualifyingPlaces.mpr hp))

/-- **Two bookmarks with words and different addresses are found if they are as alike as is asked for.** -/
theorem exists_joins_of_le_likeness {t : ℝ} (ha : a ∈ bs) (hb : b ∈ bs) (hawords : a.weightedWords ≠ [])
    (hbwords : b.weightedWords ≠ []) (hurl : a.url ≠ b.url) (ht : t ≤ likeness bs a b) :
    ∃ n : Nat, ∃ p ∈ similarPairs bs t n, p.Joins a b := by
  obtain ⟨i, rfl⟩ := List.get_of_mem ha
  obtain ⟨j, rfl⟩ := List.get_of_mem hb
  have hne : i ≠ j := fun he => hurl (he ▸ rfl)
  rcases lt_or_gt_of_ne hne with hlt | hlt
  · obtain ⟨n, hn⟩ := exists_mem_similarPairs (t := t) (p := (i, j))
      ⟨hlt, ⟨hawords, hbwords⟩, hurl, Scalar.le_exact.mpr ht⟩
    exact ⟨n, _, hn, Or.inl ⟨rfl, rfl⟩⟩
  · rw [likeness_comm ha hb hawords hbwords] at ht
    obtain ⟨n, hn⟩ := exists_mem_similarPairs (t := t) (p := (j, i))
      ⟨hlt, ⟨hbwords, hawords⟩, hurl.symm, Scalar.le_exact.mpr ht⟩
    exact ⟨n, _, hn, Or.inr ⟨rfl, rfl⟩⟩

end Likeness

/-! ## The best related bookmarks -/

section Best

variable {bs : List Bookmark} {target : Bookmark}

theorem sameText_iff {s t : String} : sameText s t = true ↔ s ≠ "" ∧ s = t := by
  simp [sameText]

/-- The likeness to the target, raised if the bookmarks share a domain or a category. -/
noncomputable def relatedness (bs : List Bookmark) (target b : Bookmark) : ℝ :=
  likeness bs target b * (if b.domain ≠ "" ∧ b.domain = target.domain then 3 / 2 else 1) *
    (if b.category ≠ "" ∧ b.category = target.category then 13 / 10 else 1)

/-- A bookmark related to the target. -/
noncomputable def relative (bs : List Bookmark) (target b : Bookmark) : Related ℝ :=
  ⟨b, relatedness bs target b, sameText b.domain target.domain, sameText b.category target.category⟩

theorem relatedTo_eq (bs : List Bookmark) (target b : Bookmark) :
    relatedTo target (vectorAmong bs target) (b, vectorAmong bs b) = relative bs target b := by
  simp only [relatedTo, relative, relatedness, likeness, sameText_iff, Scalar.ratio_exact, Related.mk.injEq, true_and,
    and_true]
  split <;> split <;> simp

/-- The other bookmarks that have words and are related enough to the target. -/
noncomputable def relatives (bs : List Bookmark) (target : Bookmark) : List Bookmark :=
  ((others target bs).filter hasWords).filter fun b => 1 / 10 < relatedness bs target b

theorem mem_relatives (hids : (bs.map (·.id)).Nodup) (htarget : target ∈ bs) {b : Bookmark} :
    b ∈ relatives bs target ↔
      b ∈ bs ∧ b ≠ target ∧ b.weightedWords ≠ [] ∧ 1 / 10 < relatedness bs target b := by
  simp only [relatives, List.mem_filter, mem_others hids htarget, hasWords_iff, decide_eq_true_iff, and_assoc]

theorem relatives_sublist (bs : List Bookmark) (target : Bookmark) : (relatives bs target).Sublist bs :=
  (List.filter_sublist.trans List.filter_sublist).trans List.filter_sublist

/-- **The relatives are listed, the most related first.** -/
theorem related_eq_map (hids : (bs.map (·.id)).Nodup) (htarget : target ∈ bs) (hwords : target.weightedWords ≠ [])
    (n : Nat) : related bs target.id n =
      ((Scalar.descending (relatedness bs target) (relatives bs target)).take n).map (relative bs target) := by
  have hrelatives : (((others target bs).filter hasWords).map (relative bs target)).filter
      (fun r => Scalar.lt (Scalar.ratio 1 10) r.similarity) = (relatives bs target).map (relative bs target) := by
    rw [List.filter_map, relatives]
    refine congrArg _ (List.filter_congr fun b _ => ?_)
    rw [Function.comp_apply, Bool.eq_iff_iff, Scalar.lt_exact, Scalar.ratio_exact, decide_eq_true_iff]
    norm_num [relative]
  rw [related_eq hids htarget hwords, upTo_of_nonneg (Int.natCast_nonneg n), Int.toNat_natCast]
  simp only [relatedTo_eq]
  rw [hrelatives, Scalar.descending_map, List.map_take]
  rfl

/-- **The related bookmarks are the best ones.**  They are those other bookmarks with words that are related enough to
the target, as many as asked for, the most related first, and where that does not decide as they are listed.  How alike
a bookmark is to the target is the similarity of the pair of the two wherever it is found among the similar pairs, and
it is found by some search if their addresses differ.  It does not matter where the target stands. -/
theorem related_best (hids : (bs.map (·.id)).Nodup) (htarget : target ∈ bs) (hwords : target.weightedWords ≠ [])
    (n : Nat) :
    ((relatives bs target).Sublist bs ∧ ∀ x, x ∈ relatives bs target ↔
        x ∈ bs ∧ x ≠ target ∧ x.weightedWords ≠ [] ∧ 1 / 10 < relatedness bs target x) ∧
      (∃ xs, related bs target.id n = xs.map (relative bs target) ∧
        Scalar.Best (relatedness bs target) n (relatives bs target) xs) ∧
      (∀ x (t : ℝ) (m : Nat), ∀ p ∈ similarPairs bs t m, p.Joins target x → p.similarity = likeness bs target x) ∧
      (∀ x ∈ bs, x.weightedWords ≠ [] → target.url ≠ x.url → ∀ t ≤ likeness bs target x,
        ∃ m : Nat, ∃ p ∈ similarPairs bs t m, p.Joins target x) ∧
      ∀ cs, (cs.map (·.id)).Nodup → target ∈ cs → others target cs = others target bs →
        (related cs target.id n : List (Related ℝ)) = related bs target.id n := by
  have hnodup : (relatives bs target).Nodup := hids.of_map.sublist (relatives_sublist bs target)
  refine ⟨⟨relatives_sublist bs target, fun x => mem_relatives hids htarget⟩,
    ⟨_, related_eq_map hids htarget hwords n, Scalar.best_descending hnodup (fun x _ => Scalar.isNumber_exact _) n⟩,
    fun x t m p hp hjoins => similarity_of_mem_similarPairs hp hjoins,
    fun x hx hxwords hurl t ht => exists_joins_of_le_likeness htarget hx hwords hxwords hurl ht,
    fun cs hcs htarget' hothers => ?_⟩
  -- both lists are the target and the others in another order, so they give the same vectors
  have hperm : cs.Perm bs := by
    have hfirst := perm_target_others hcs htarget'
    rw [hothers] at hfirst
    exact hfirst.symm.trans (perm_target_others hids htarget)
  rw [related_eq hcs htarget' hwords, related_eq hids htarget hwords, hothers]
  simp only [vectorAmong_perm hperm]

/-- Of two bookmarks of which one has the title of the target, that one is related to it. -/
theorem related_best_sample :
    let a : Bookmark := { id := "a", title := "Rust" }
    let b : Bookmark := { id := "b", title := "Rust" }
    let c : Bookmark := { id := "c", title := "Lean" }
    ([a, b, c].map (·.id)).Nodup ∧ (related [a, b, c] "b" 1 : List (Related ℝ)).map (·.bookmark.id) = ["a"] := by
  intro a b c
  have hids : ([a, b, c].map (·.id)).Nodup := by decide
  have hb : b ∈ [a, b, c] := by simp
  have hwords : b.weightedWords ≠ [] := by decide +kernel
  obtain ⟨⟨_, hmem⟩, ⟨xs, hxs, hbest⟩, _⟩ := related_best hids hb hwords 1
  have hsame : likeness [a, b, c] b a = 1 :=
    likeness_of_sameWords (t := "rust") (c := c) hb rfl (by decide +kernel) (by simp) (by decide +kernel)
      (by decide +kernel)
  have hnothing : likeness [a, b, c] b c = 0 := likeness_of_disjoint (by decide +kernel)
  have ha : a ∈ relatives [a, b, c] b := by
    have hne : a ≠ b := fun he => absurd (congrArg Bookmark.id he) (by decide)
    refine (hmem a).mpr ⟨by simp, hne, by decide +kernel, ?_⟩
    rw [relatedness, hsame]
    norm_num [a, b]
  have hc : c ∉ relatives [a, b, c] b := by
    intro hc
    obtain ⟨_, _, _, hrelated⟩ := (hmem c).mp hc
    rw [relatedness, hnothing] at hrelated
    norm_num at hrelated
  have hlength : xs.length = 1 := by
    have hpos := List.length_pos_of_mem ha
    rw [hbest.length]
    omega
  obtain ⟨x, rfl⟩ := List.length_eq_one_iff.mp hlength
  have hx := hbest.subset x (by simp)
  have hfound : x = a := by
    obtain ⟨hlisted, hne, _⟩ := (hmem x).mp hx
    simp only [List.mem_cons, List.not_mem_nil, or_false] at hlisted
    rcases hlisted with h | h | h
    · exact h
    · exact absurd h hne
    · rw [h] at hx
      exact absurd hx hc
  have hid : b.id = "b" := rfl
  rw [hid, Nat.cast_one, hfound] at hxs
  rw [hxs]
  exact ⟨hids, rfl⟩

end Best

end Shelfmark.Similarity
