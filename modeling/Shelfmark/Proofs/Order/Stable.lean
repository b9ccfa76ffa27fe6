/-!
# Stable sorting

A list is sorted stably when the result has the same members, stands in order, and keeps the members that the order
does not tell apart as they were (`StablySorted`).  Merge sort does so as soon as the order is total and transitive
on the members of the list (`stablySorted_mergeSort`).  An order that is followed by another one where it does not
decide is such an order again (`thenBy_trans`, `thenBy_total`).
-/

namespace Shelfmark

/-- `ys` is `xs` sorted by `le`, and what was in order stays in order. -/
structure StablySorted {α : Type} (le : α → α → Bool) (xs ys : List α) : Prop where
  perm : ys.Perm xs
  sorted : ys.Pairwise fun a b => le a b = true
  stable : ∀ {a b}, [a, b].Sublist xs → le a b = true → [a, b].Sublist ys

section Pairs

variable {β : Type} {x y : β}

/-- One of two members stands before the other. -/
theorem pair_sublist_or (hne : x ≠ y) : ∀ {xs : List β}, x ∈ xs → y ∈ xs → [x, y].Sublist xs ∨ [y, x].Sublist xs
  | z :: rest, hx, hy => by
    rcases List.mem_cons.mp hx with rfl | hrest
    · have hy : y ∈ rest := (List.mem_cons.mp hy).resolve_left fun he => hne he.symm
      exact Or.inl ((List.singleton_sublist.mpr hy).cons_cons x)
    · rcases List.mem_cons.mp hy with rfl | hy
      · exact Or.inr ((List.singleton_sublist.mpr hrest).cons_cons y)
      · exact (pair_sublist_or hne hrest hy).imp (·.cons z) (·.cons z)

/-- Of two members of a list without repetitions only one stands before the other. -/
theorem not_pair_sublist : ∀ {xs : List β}, xs.Nodup → [x, y].Sublist xs → ¬[y, x].Sublist xs
  | z :: rest, h, hxy, hyx => by
    obtain ⟨hz, hrest⟩ := List.nodup_cons.mp h
    cases hxy with
    | cons _ hxy =>
      cases hyx with
      | cons _ hyx => exact not_pair_sublist hrest hxy hyx
      | cons_cons _ _ => exact hz (hxy.subset (by simp))
    | cons_cons _ hxy =>
      cases hyx with
      | cons _ hyx => exact hz (hyx.subset (by simp))
      | cons_cons _ _ => exact hz (List.singleton_sublist.mp hxy)

/-- The first members of a list stand before the others. -/
theorem pair_sublist_of_mem_take {xs : List β} {n : Nat} (hx : x ∈ xs.take n) (hy : y ∈ xs) (hout : y ∉ xs.take n) :
    [x, y].Sublist xs := by
  rw [← List.take_append_drop n xs, List.mem_append] at hy
  have hrest : y ∈ xs.drop n := hy.resolve_left hout
  have happend := (List.singleton_sublist.mpr hx).append (List.singleton_sublist.mpr hrest)
  rwa [List.take_append_drop] at happend

end Pairs

/-- Members that the order does not tell apart stand after sorting as they did before. -/
theorem StablySorted.pair_sublist {β : Type} {le : β → β → Bool} {xs ys : List β} (hs : StablySorted le xs ys)
    (hxs : xs.Nodup) {x y : β} (hxy : [x, y].Sublist ys) (htie : le y x = true) : [x, y].Sublist xs := by
  have hys : ys.Nodup := hs.perm.nodup_iff.mpr hxs
  have hne : x ≠ y := by simpa using hys.sublist hxy
  have hx : x ∈ xs := hs.perm.subset (hxy.subset (by simp))
  have hy : y ∈ xs := hs.perm.subset (hxy.subset (by simp))
  exact (pair_sublist_or hne hx hy).resolve_right fun h => not_pair_sublist hys hxy (hs.stable h htie)

section MergeSort

variable {α : Type} {le s : α → α → Bool} {xs : List α}

/-- Merge sort only looks at the order of members. -/
theorem mergeSort_congr (h : ∀ a ∈ xs, ∀ b ∈ xs, le a b = s a b) : xs.mergeSort le = xs.mergeSort s := by
  have hm := @List.map_mergeSort _ _ le s id xs h
  simpa using hm

/-- Merge sort is stable for an order that agrees on the members with a total and transitive one. -/
theorem stablySorted_mergeSort (trans : ∀ a b c, s a b = true → s b c = true → s a c = true)
    (total : ∀ a b, (s a b || s b a) = true) (h : ∀ a ∈ xs, ∀ b ∈ xs, le a b = s a b) :
    StablySorted le xs (xs.mergeSort le) := by
  have hp := List.mergeSort_perm xs le
  refine ⟨hp, ?_, fun {a b} hab hle => ?_⟩
  · have hs := List.pairwise_mergeSort trans total xs
    rw [← mergeSort_congr h] at hs
    exact hs.imp_of_mem fun ha hb hs => by rw [h _ (hp.mem_iff.mp ha) _ (hp.mem_iff.mp hb)]; exact hs
  · rw [mergeSort_congr h]
    rw [h a (hab.subset (by simp)) b (hab.subset (by simp))] at hle
    exact List.pair_sublist_mergeSort trans total hle hab

end MergeSort

section ThenBy

variable {α : Type} {le le' : α → α → Bool}

/-- The first order, and where it does not tell two members apart the second one. -/
def thenBy (le le' : α → α → Bool) (a b : α) : Bool := le a b && (!le b a || le' a b)

theorem thenBy_trans (trans : ∀ a b c, le a b = true → le b c = true → le a c = true)
    (trans' : ∀ a b c, le' a b = true → le' b c = true → le' a c = true) (a b c : α) (hab : thenBy le le' a b = true)
    (hbc : thenBy le le' b c = true) : thenBy le le' a c = true := by
  simp only [thenBy, Bool.and_eq_true, Bool.or_eq_true, Bool.not_eq_true'] at *
  obtain ⟨hab, htie⟩ := hab
  obtain ⟨hbc, htie'⟩ := hbc
  refine ⟨trans _ _ _ hab hbc, ?_⟩
  cases hca : le c a with
  | false => exact Or.inl rfl
  | true =>
    have hba : le b a = true := trans _ _ _ hbc hca
    have hcb : le c b = true := trans _ _ _ hca hab
    rw [hba] at htie
    rw [hcb] at htie'
    exact Or.inr (trans' _ _ _ (htie.resolve_left (by simp)) (htie'.resolve_left (by simp)))

theorem thenBy_total (total : ∀ a b, (le a b || le b a) = true) (total' : ∀ a b, (le' a b || le' b a) = true)
    (a b : α) : (thenBy le le' a b || thenBy le le' b a) = true := by
  have h := total a b
  have h' := total' a b
  revert h h'
  unfold thenBy
  cases le a b <;> cases le b a <;> simp

end ThenBy

end Shelfmark
