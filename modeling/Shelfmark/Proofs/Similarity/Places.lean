import Mathlib.Data.List.FinRange
import Shelfmark.Proofs.Order.Scalars
import Shelfmark.Proofs.Similarity.Pairs

/-!
# Pairs of places

The pairs of bookmarks with similar content are told apart by the places where their bookmarks stand in the list, also
where one bookmark is listed twice and where bookmarks without words are passed over.  The pairs of places that qualify
(`Qualifies`) are listed in the order in which they are compared (`pairwise_qualifyingPlaces`), and the pairs of
bookmarks that qualify are those at these places (`map_qualifyingPlaces`).

So the pairs found are the best of the first places that qualify (`similarPairs_best`).
-/

namespace Shelfmark.Similarity

/-! ## Pairs of a list -/

section Pairs

variable {β γ : Type}

theorem orderedPairs_map (f : β → γ) : ∀ xs : List β, orderedPairs (xs.map f) = (orderedPairs xs).map (Prod.map f f)
  | [] => rfl
  | x :: rest => by
    rw [List.map_cons, orderedPairs, orderedPairs, orderedPairs_map f rest, List.map_append]
    simp [Function.comp_def]

/-- The pairs of the members that are kept are the pairs of which both members are kept. -/
theorem orderedPairs_filter (keep : β → Bool) :
    ∀ xs : List β, orderedPairs (xs.filter keep) = (orderedPairs xs).filter fun p => keep p.1 && keep p.2
  | [] => rfl
  | x :: rest => by
    have hrest := orderedPairs_filter keep rest
    rw [orderedPairs, List.filter_append, ← hrest, List.filter_map]
    cases hx : keep x with
    | true => simp [hx, orderedPairs, Function.comp_def]
    | false => simp [hx, Function.comp_def]

/-- Pairs are listed by their first members, and those with the same first member by their second ones. -/
theorem pairwise_orderedPairs {before : β → β → Prop} : ∀ {xs : List β}, xs.Pairwise before →
    (orderedPairs xs).Pairwise fun p q => before p.1 q.1 ∨ p.1 = q.1 ∧ before p.2 q.2
  | [], _ => List.Pairwise.nil
  | x :: rest, h => by
    obtain ⟨hx, hrest⟩ := List.pairwise_cons.mp h
    refine List.pairwise_append.mpr ⟨?_, pairwise_orderedPairs hrest, fun p hp q hq => ?_⟩
    · exact List.pairwise_map.mpr (hrest.imp fun hyz => Or.inr ⟨rfl, hyz⟩)
    · obtain ⟨y, _, rfl⟩ := List.mem_map.mp hp
      exact Or.inl (hx q.1 (mem_of_mem_orderedPairs hq).1)

end Pairs

variable {α : Type} [AnalyticScalar α] {bs : List Bookmark} {t : α}

/-! ## Vectors -/

/-- The bookmark has words that it can be compared by. -/
def hasWords (b : Bookmark) : Bool := !b.weightedWords.isEmpty

theorem hasWords_iff {b : Bookmark} : hasWords b = true ↔ b.weightedWords ≠ [] := by
  simp [hasWords]

theorem withWords_eq (bs : List Bookmark) : withWords bs = (bs.filter hasWords).map fun b => (b, b.weightedWords) :=
  List.filter_map

/-- The vector of a bookmark among all bookmarks that have words. -/
def vectorAmong (bs : List Bookmark) (b : Bookmark) : TermVector α :=
  let documents := (withWords bs).map fun d => (d.1.id, d.2)
  TermVector.ofWords documents.length (TermVector.allTerms documents) (b.id, b.weightedWords)

/-- The bookmark at a place, with its vector. -/
def entryAt (bs : List Bookmark) (i : Fin bs.length) : Bookmark × TermVector α :=
  (bs.get i, vectorAmong bs (bs.get i))

theorem vectors_eq (bs : List Bookmark) : (vectors (withWords bs) : List (Bookmark × TermVector α)) =
    (bs.filter hasWords).map fun b => (b, vectorAmong bs b) := by
  rw [vectors, TermVector.ofDocuments, List.map_map, List.zip_map']
  exact (congrArg (List.map _) (withWords_eq bs)).trans List.map_map

/-- Places stay behind one another when bookmarks without words are passed over. -/
theorem vectors_withWords (bs : List Bookmark) : (vectors (withWords bs) : List (Bookmark × TermVector α)) =
    ((List.finRange bs.length).filter fun i => hasWords (bs.get i)).map (entryAt bs) := by
  have hbs : bs.filter hasWords = ((List.finRange bs.length).filter fun i => hasWords (bs.get i)).map bs.get := by
    conv_lhs => rw [← List.map_get_finRange bs, List.filter_map, Function.comp_def]
  rw [vectors_eq, hbs, List.map_map]
  rfl

/-! ## Places -/

/-- Two places in a list of bookmarks. -/
abbrev Places (bs : List Bookmark) := Fin bs.length × Fin bs.length

/-- The pair of the bookmarks at two places. -/
def pairAt (bs : List Bookmark) (p : Places bs) : SimilarPair α := pairOf (entryAt bs p.1, entryAt bs p.2)

/-- The similarity of the bookmarks at two places. -/
def similarityAt (α : Type) [AnalyticScalar α] (bs : List Bookmark) (p : Places bs) : α := (pairAt bs p).similarity

/-- The bookmarks at two places, of which one is behind the other, have words and different addresses, and are at least
as similar as a threshold. -/
structure Qualifies (t : α) (p : Places bs) : Prop where
  behind : p.1 < p.2
  words : (bs.get p.1).weightedWords ≠ [] ∧ (bs.get p.2).weightedWords ≠ []
  addresses : (bs.get p.1).url ≠ (bs.get p.2).url
  similar : Scalar.le t (similarityAt α bs p) = true

/-- The bookmarks at two places are compared before those at two others. -/
def ComparedBefore (p q : Places bs) : Prop := p.1 < q.1 ∨ p.1 = q.1 ∧ p.2 < q.2

/-- The places that qualify, in the order in which they are compared. -/
def qualifyingPlaces (bs : List Bookmark) (t : α) : List (Places bs) :=
  (orderedPairs (List.finRange bs.length)).filter fun p =>
    hasWords (bs.get p.1) && hasWords (bs.get p.2) && (bs.get p.1).url != (bs.get p.2).url &&
      Scalar.le t (similarityAt α bs p)

theorem mem_orderedPairs_finRange {n : Nat} {i j : Fin n} : (i, j) ∈ orderedPairs (List.finRange n) ↔ i < j := by
  have hlt := List.pairwise_lt_finRange n
  rw [mem_orderedPairs]
  constructor
  · exact fun h => by simpa using hlt.sublist h
  · intro h
    refine (pair_sublist_or (ne_of_lt h) (List.mem_finRange i) (List.mem_finRange j)).resolve_right fun h' => ?_
    have hji : j < i := by simpa using hlt.sublist h'
    exact lt_asymm h hji

@[simp] theorem mem_qualifyingPlaces {p : Places bs} : p ∈ qualifyingPlaces bs t ↔ Qualifies t p := by
  rw [qualifyingPlaces, List.mem_filter, mem_orderedPairs_finRange]
  simp only [Bool.and_eq_true, hasWords_iff, bne_iff_ne]
  constructor
  · rintro ⟨hlt, ⟨hwords, hurl⟩, hle⟩
    exact ⟨hlt, hwords, hurl, hle⟩
  · rintro ⟨hlt, hwords, hurl, hle⟩
    exact ⟨hlt, ⟨hwords, hurl⟩, hle⟩

theorem pairwise_qualifyingPlaces (bs : List Bookmark) (t : α) :
    (qualifyingPlaces bs t).Pairwise ComparedBefore :=
  (pairwise_orderedPairs (List.pairwise_lt_finRange bs.length)).filter _

theorem nodup_qualifyingPlaces (bs : List Bookmark) (t : α) : (qualifyingPlaces bs t).Nodup := by
  refine (pairwise_qualifyingPlaces bs t).imp ?_
  rintro p _ h rfl
  rcases h with h | ⟨_, h⟩
  · exact lt_irrefl _ h
  · exact lt_irrefl _ h

/-- **The pairs of bookmarks that qualify stand at the places that qualify.** -/
theorem map_qualifyingPlaces (bs : List Bookmark) (t : α) :
    (qualifyingPlaces bs t).map (pairAt bs) = qualifyingPairs bs t := by
  rw [qualifyingPairs, qualifying, vectors_withWords, orderedPairs_map, orderedPairs_filter]
  simp only [List.filter_map, List.filter_filter, List.map_map]
  refine congrArg (List.map (pairAt bs)) (List.filter_congr fun p _ => ?_)
  simp only [Function.comp_apply, Prod.map, similarityAt, pairAt, entryAt, Bool.and_assoc, Bool.and_comm]

/-! ## The best pairs -/

/-- The places of the pairs that are found. -/
def foundPlaces (bs : List Bookmark) (t : α) (n : Nat) : List (Places bs) :=
  (Scalar.descending (similarityAt α bs) ((qualifyingPlaces bs t).take (surplus * n))).take n

theorem similarPairs_eq_map (bs : List Bookmark) (t : α) (n : Nat) :
    similarPairs bs t n = (foundPlaces bs t n).map (pairAt bs) := by
  rw [similarPairs_eq, Int.toNat_natCast, ← map_qualifyingPlaces, ← List.map_take, Scalar.descending_map,
    ← List.map_take]
  rfl

theorem length_foundPlaces (bs : List Bookmark) (t : α) (n : Nat) :
    (foundPlaces bs t n).length = min n (qualifyingPlaces bs t).length := by
  have hperm := List.mergeSort_perm ((qualifyingPlaces bs t).take (surplus * n)) fun p q =>
    Scalar.le (similarityAt α bs q) (similarityAt α bs p)
  rw [foundPlaces, List.length_take, Scalar.descending, hperm.length_eq, List.length_take, surplus]
  omega

variable [Scalar.IsOrdered α]

theorem best_foundPlaces (bs : List Bookmark) (t : α) (n : Nat) :
    Scalar.Best (similarityAt α bs) n ((qualifyingPlaces bs t).take (surplus * n))
      (foundPlaces bs t n) := by
  refine Scalar.best_descending ((nodup_qualifyingPlaces bs t).sublist (List.take_sublist _ _)) (fun p hp => ?_) n
  exact Scalar.IsOrdered.right (mem_qualifyingPlaces.mp (List.mem_of_mem_take hp)).similar

/-- Fewer places qualify for a higher threshold. -/
theorem qualifyingPlaces_sublist (bs : List Bookmark) {t' : α} (h : Scalar.le t t' = true) :
    (qualifyingPlaces bs t').Sublist (qualifyingPlaces bs t) := by
  refine List.monotone_filter_right _ fun p hp => ?_
  rw [Bool.and_eq_true] at hp ⊢
  exact ⟨hp.1, Scalar.IsOrdered.le_trans h hp.2⟩

/-- **The pairs found are the best of the first that qualify.**  They are those at different pairs of places, as many as
asked for unless fewer qualify, the most similar first, and where that does not decide in the order of comparison.  A
higher threshold finds no more pairs; and if no more qualify than the search looks for, none is left out for one that is
less similar. -/
theorem similarPairs_best (bs : List Bookmark) (t : α) (n : Nat) :
    let q := qualifyingPlaces bs t
    ((∀ p, p ∈ q ↔ Qualifies t p) ∧ q.Pairwise ComparedBefore) ∧
      (∃ ps : List (Places bs), similarPairs bs t n = ps.map (pairAt bs) ∧ ps.length = min n q.length ∧
        Scalar.Best (similarityAt α bs) n (q.take (surplus * n)) ps ∧
        (q.length ≤ surplus * n →
          ∀ x ∈ ps, ∀ y ∈ q, y ∉ ps → Scalar.le (similarityAt α bs y) (similarityAt α bs x) = true)) ∧
      ∀ t', Scalar.le t t' = true → (similarPairs bs t' n).length ≤ (similarPairs bs t n).length := by
  intro q
  have hbest := best_foundPlaces bs t n
  refine ⟨⟨fun p => mem_qualifyingPlaces, pairwise_qualifyingPlaces bs t⟩,
    ⟨foundPlaces bs t n, similarPairs_eq_map bs t n, length_foundPlaces bs t n, hbest, fun hall x hx y hy hout => ?_⟩,
    fun t' ht => ?_⟩
  · rw [List.take_of_length_le hall] at hbest
    exact (hbest.leftOut x hx y hy hout).1
  · have hfewer := (qualifyingPlaces_sublist bs ht).length_le
    rw [similarPairs_eq_map, similarPairs_eq_map, List.length_map, List.length_map, length_foundPlaces,
      length_foundPlaces]
    omega

/-- Two bookmarks without a common word are a pair if no similarity is asked for, and no other pair is found for a
higher threshold. -/
theorem similarPairs_best_sample :
    let a : Bookmark := { id := "a", url := "a", title := "Rust" }
    let b : Bookmark := { id := "b", url := "b", title := "Lean" }
    Scalar.IsOrdered Float ∧ (similarPairs [a, b] (0 : Float) 1).length = 1 ∧
      ∀ t' : Float, Scalar.le 0 t' = true → (similarPairs [a, b] t' 1).length ≤ 1 := by
  intro a b
  obtain ⟨⟨hmem, _⟩, ⟨ps, hps, hlength, _⟩, hmono⟩ := similarPairs_best [a, b] (0 : Float) 1
  have hdisjoint : ∀ x ∈ a.weightedWords, x ∉ b.weightedWords := by decide +kernel
  have hsimilarity : similarityAt Float [a, b] (0, 1) = Scalar.zero := cosine_of_disjoint hdisjoint
  have hfirst : (0, 1) ∈ qualifyingPlaces [a, b] (0 : Float) := by
    refine (hmem (0, 1)).mpr ⟨by decide, ⟨by decide +kernel, by decide +kernel⟩, by decide +kernel, ?_⟩
    rw [hsimilarity]
    decide +kernel
  have hone : (similarPairs [a, b] (0 : Float) 1).length = 1 := by
    have hpos := List.length_pos_of_mem hfirst
    have hfound := congrArg List.length hps
    rw [List.length_map, hlength] at hfound
    exact hfound.trans (by omega)
  exact ⟨inferInstance, hone, fun t' ht => hone ▸ hmono t' ht⟩

end Shelfmark.Similarity
