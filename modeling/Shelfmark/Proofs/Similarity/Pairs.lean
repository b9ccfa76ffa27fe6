import Shelfmark.Proofs.Bookmark.Records
import Shelfmark.Proofs.Fallible
import Shelfmark.Proofs.Text.Words
import Shelfmark.Similarity.Encoding

/-!
# Pairs of bookmarks with similar content

The search finds the first of the pairs that qualify, as many as its budget says, wherever it ends (`toList_searchRow`,
`toList_searchRows`), and the best of these are listed (`similarPairs_eq`).

The pairs that are found among some bookmarks consist of them (`mem_similarPairs`).  Two bookmarks without a common word
have no similarity, and make a pair only if none is asked for (`similarPairs_of_disjoint`).  A pair that was written is
read back as it was (`ofJson_toJson`), and so is a list of pairs (`mapM_ofJson`).
-/

namespace Shelfmark.Similarity

/-! ## What pairs consist of -/

/-- **The pairs are those whose first member stands before the second.** -/
theorem mem_orderedPairs {β : Type} {x y : β} :
    ∀ {xs : List β}, (x, y) ∈ orderedPairs xs ↔ [x, y].Sublist xs
  | [] => by simp [orderedPairs]
  | z :: rest => by
    rw [orderedPairs, List.mem_append, mem_orderedPairs, List.mem_map]
    constructor
    · rintro (⟨y', hy, he⟩ | h)
      · cases he
        exact (List.singleton_sublist.mpr hy).cons_cons _
      · exact h.cons z
    · intro h
      cases h with
      | cons _ h => exact Or.inr h
      | cons_cons _ h => exact Or.inl ⟨y, List.singleton_sublist.mp h, rfl⟩

theorem mem_of_mem_orderedPairs {β : Type} {p : β × β} {xs : List β} (h : p ∈ orderedPairs xs) :
    p.1 ∈ xs ∧ p.2 ∈ xs := by
  have hsub : [p.1, p.2].Sublist xs := mem_orderedPairs.mp h
  exact ⟨hsub.subset (by simp), hsub.subset (by simp)⟩

/-! ## The search -/

theorem take_of_room {β : Type} {budget : Nat} {found : Array β} (hroom : found.size < budget) :
    found.toList.take budget = found.toList :=
  List.take_of_length_le (by rw [Array.length_toList]; omega)

section Search

variable {α : Type} [AnalyticScalar α] {threshold : α} {budget : Nat} {found : Array (SimilarPair α)}
  {ps qs : List ((Bookmark × TermVector α) × (Bookmark × TermVector α))}

/-- Of some pairs those with different addresses that are at least as similar as a threshold. -/
def qualifying (threshold : α) (ps : List ((Bookmark × TermVector α) × (Bookmark × TermVector α))) :
    List (SimilarPair α) :=
  ((ps.filter fun p => p.1.1.url != p.2.1.url).map pairOf).filter fun p => Scalar.le threshold p.similarity

/-- All pairs of bookmarks with words that qualify, in the order in which they are compared. -/
def qualifyingPairs (bs : List Bookmark) (threshold : α) : List (SimilarPair α) :=
  qualifying threshold (orderedPairs (vectors (withWords bs)))

@[simp] theorem qualifying_append :
    qualifying threshold (ps ++ qs) = qualifying threshold ps ++ qualifying threshold qs := by
  simp [qualifying]

theorem qualifying_cons (p : (Bookmark × TermVector α) × (Bookmark × TermVector α)) :
    qualifying threshold (p :: ps) =
      if p.1.1.url == p.2.1.url then qualifying threshold ps
      else if Scalar.le threshold (pairOf p).similarity then pairOf p :: qualifying threshold ps
      else qualifying threshold ps := by
  by_cases hurl : p.1.1.url = p.2.1.url <;> simp [qualifying, hurl, List.filter_cons]

/-- **One bookmark is compared** with those behind it up to the pair that uses up the budget. -/
theorem toList_searchRow (threshold : α) (d : Bookmark × TermVector α) (rest : List (Bookmark × TermVector α))
    (hroom : found.size < budget) : (searchRow threshold budget d found rest).toList =
      (found.toList ++ qualifying threshold (rest.map (d, ·))).take budget := by
  induction rest generalizing found with
  | nil => simpa [searchRow, qualifying] using (take_of_room hroom).symm
  | cons e rest ih =>
    rw [searchRow, List.map_cons, qualifying_cons]
    by_cases hurl : (d.1.url == e.1.url) = true
    · rw [if_pos hurl, if_pos hurl, ih hroom]
    · rw [if_neg hurl, if_neg hurl]
      by_cases hle : Scalar.le threshold (pairOf (d, e)).similarity = true
      · simp only [hle, if_true, Array.size_push]
        split
        · -- the pair is the last one that the budget allows
          have hlast : budget = (found.toList ++ [pairOf (d, e)]).length := by
            rw [List.length_append, List.length_singleton, Array.length_toList]
            omega
          rw [Array.toList_push, List.append_cons _ _ (qualifying threshold _), hlast, List.take_left]
        · rename_i hmore
          rw [ih (by rw [Array.size_push]; omega), Array.toList_push, List.append_assoc, List.singleton_append]
      · -- no pair is added, and there is as much room as before
        simp only [hle, Bool.false_eq_true, if_false]
        rw [if_neg (by omega), ih hroom]

/-- **The search finds the first pairs that qualify**, as many as the budget says. -/
theorem toList_searchRows (ds : List (Bookmark × TermVector α)) (hroom : found.size < budget) :
    (searchRows threshold budget found ds).toList =
      (found.toList ++ qualifying threshold (orderedPairs ds)).take budget := by
  induction ds generalizing found with
  | nil => simpa [searchRows, orderedPairs, qualifying] using (take_of_room hroom).symm
  | cons d rest ih =>
    have hrow := toList_searchRow threshold d rest hroom
    have hsize := congrArg List.length hrow
    rw [Array.length_toList, List.length_take] at hsize
    rw [searchRows, orderedPairs, qualifying_append, ← List.append_assoc]
    split <;> rename_i hfull
    · exact hrow.trans (List.take_append_of_le_length (by omega)).symm
    · -- the budget has cut off nothing yet, and the next row begins with room again
      rw [ih (by omega), hrow, List.take_of_length_le (l := found.toList ++ _) (by omega)]

/-- **The pairs found are the best of the first that qualify.** -/
theorem similarPairs_eq (bs : List Bookmark) (threshold : α) (maxPairs : Int) :
    similarPairs bs threshold maxPairs = (Scalar.descending (·.similarity)
      ((qualifyingPairs bs threshold).take (surplus * maxPairs.toNat))).take maxPairs.toNat := by
  rw [similarPairs]
  cases hn : maxPairs.toNat with
  | zero => rw [List.take_zero, List.take_zero]
  | succ n =>
    have hroom : (#[] : Array (SimilarPair α)).size < surplus * (n + 1) := by
      show 0 < 3 * (n + 1)
      omega
    rw [toList_searchRows _ hroom, List.nil_append, qualifyingPairs]

end Search

/-! ## The pairs found -/

section Found

variable {α : Type} [AnalyticScalar α] {bs : List Bookmark} {threshold : α} {maxPairs : Int} {p : SimilarPair α}

/-- Only bookmarks that are given have vectors. -/
theorem mem_of_mem_vectors {d : Bookmark × TermVector α} (h : d ∈ vectors (withWords bs)) : d.1 ∈ bs := by
  obtain ⟨e, he, heq⟩ := List.mem_map.mp (List.of_mem_zip h).1
  obtain ⟨b, hb, rfl⟩ := List.mem_map.mp (List.mem_filter.mp he).1
  exact heq ▸ hb

theorem mem_qualifyingPairs (h : p ∈ qualifyingPairs bs threshold) : p.first ∈ bs ∧ p.second ∈ bs := by
  rw [qualifyingPairs, qualifying] at h
  obtain ⟨q, hq, rfl⟩ := List.mem_map.mp (List.mem_filter.mp h).1
  obtain ⟨h₁, h₂⟩ := mem_of_mem_orderedPairs (List.mem_filter.mp hq).1
  exact ⟨mem_of_mem_vectors h₁, mem_of_mem_vectors h₂⟩

/-- **The pairs found among some bookmarks consist of them.** -/
theorem mem_similarPairs (h : p ∈ similarPairs bs threshold maxPairs) : p.first ∈ bs ∧ p.second ∈ bs := by
  rw [similarPairs_eq] at h
  have hfound := (List.mergeSort_perm _ _).mem_iff.mp (List.mem_of_mem_take h)
  exact mem_qualifyingPairs (List.mem_of_mem_take hfound)

/-! ## Bookmarks without a common word -/

/-- Only words of a document have weights. -/
theorem mem_words_of_weight {count : Nat} {terms : List String} {d : WordList} {x : String × α}
    (h : x ∈ (TermVector.ofWords count terms d).weights) : x.1 ∈ d.2 := by
  obtain ⟨t, ht, rfl⟩ := List.mem_map.mp h
  obtain ⟨y, hy, rfl⟩ := List.mem_map.mp ht
  exact Text.mem_distinct.mp hy

/-- Documents without a common word have the similarity zero. -/
theorem cosine_of_disjoint {count count' : Nat} {terms terms' : List String} {d d' : WordList}
    (h : ∀ x ∈ d.2, x ∉ d'.2) :
    (TermVector.ofWords count terms d : TermVector α).cosine (TermVector.ofWords count' terms' d') = Scalar.zero := by
  have hshared : (TermVector.ofWords count terms d : TermVector α).shared (TermVector.ofWords count' terms' d') =
      [] := by
    unfold TermVector.shared
    refine (congrArg (List.mergeSort · _) (List.filterMap_eq_nil_iff.mpr fun x hx => ?_)).trans List.mergeSort_nil
    refine Option.map_eq_none_iff.mpr (Option.map_eq_none_iff.mpr (List.find?_eq_none.mpr fun y hy => ?_))
    have hne : y.1 ≠ x.1 := fun he => h x.1 (mem_words_of_weight hx) (he ▸ mem_words_of_weight hy)
    simpa using hne
  simp [TermVector.cosine, hshared]

/-- **Two bookmarks without a common word make a pair if a similarity of zero is enough.** -/
theorem similarPairs_of_disjoint {a b : Bookmark} (ha : a.weightedWords ≠ []) (hb : b.weightedWords ≠ [])
    (hwords : ∀ x ∈ a.weightedWords, x ∉ b.weightedWords) (hurl : a.url ≠ b.url)
    (ht : Scalar.le threshold Scalar.zero = true) (hm : 0 < maxPairs) :
    similarPairs [a, b] threshold maxPairs =
      [⟨a, b, Scalar.zero, sameText a.category b.category, sameText a.domain b.domain⟩] := by
  have hdocs : withWords [a, b] = [(a, a.weightedWords), (b, b.weightedWords)] := by
    simp [withWords, ha, hb]
  have hpairs : qualifyingPairs [a, b] threshold =
      [⟨a, b, Scalar.zero, sameText a.category b.category, sameText a.domain b.domain⟩] := by
    have hcosine : ∀ count terms, (TermVector.ofWords count terms (a.id, a.weightedWords) : TermVector α).cosine
        (TermVector.ofWords count terms (b.id, b.weightedWords)) = Scalar.zero := fun _ _ => cosine_of_disjoint hwords
    rw [qualifyingPairs, hdocs]
    simp [qualifying, vectors, TermVector.ofDocuments, orderedPairs, hurl, pairOf, hcosine, ht]
  obtain ⟨n, hn⟩ : ∃ n, maxPairs.toNat = n + 1 := ⟨maxPairs.toNat - 1, by omega⟩
  rw [similarPairs_eq, hpairs, hn]
  simp [surplus, Scalar.descending, Nat.mul_add]

end Found

/-! ## Pairs read back -/

/-- **A pair that was written is read back.** -/
theorem ofJson_toJson (p : SimilarPair Float) : SimilarPair.ofJson p.toJson = .ok p := by
  have hfirst : SimilarPair.part p.toJson "bookmark1" = .ok p.first.toRecord := rfl
  have hsecond : SimilarPair.part p.toJson "bookmark2" = .ok p.second.toRecord := rfl
  have hsimilarity : SimilarPair.part p.toJson "similarity" = .ok (.float p.similarity) := rfl
  have hcategory : SimilarPair.part p.toJson "common_category" = .ok (.bool p.commonCategory) := rfl
  have hdomain : SimilarPair.part p.toJson "same_domain" = .ok (.bool p.sameDomain) := rfl
  have hread : Bookmark.readRecord p.first.toRecord = .ok p.first := p.first.reread_eq
  have hread' : Bookmark.readRecord p.second.toRecord = .ok p.second := p.second.reread_eq
  rw [SimilarPair.ofJson, hfirst, hsecond, hsimilarity, hcategory, hdomain]
  show (do
    let first ← Bookmark.readRecord p.first.toRecord
    let second ← Bookmark.readRecord p.second.toRecord
    pure (⟨first, second, p.similarity, p.commonCategory, p.sameDomain⟩ : SimilarPair Float)) = Except.ok p
  rw [hread, hread']
  rfl

/-- Pairs that were written are read back. -/
theorem mapM_ofJson (ps : List (SimilarPair Float)) : (ps.map SimilarPair.toJson).mapM SimilarPair.ofJson = .ok ps :=
  mapM_map_of_pure fun p _ => ofJson_toJson p

end Shelfmark.Similarity
