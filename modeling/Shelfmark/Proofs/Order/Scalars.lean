import Mathlib.Algebra.Order.Field.Basic
import Shelfmark.Proofs.Order.Doubles
import Shelfmark.Proofs.Order.Stable
import Shelfmark.Scalar

/-!
# The order of scalars

Scalars are compared reliably (`Scalar.IsOrdered`) if their order is transitive, and total among those that are not
greater than themselves, the numbers (`Scalar.IsNumber`).  This holds of doubles, of which NaN alone is no number, and
of the members of an ordered field, with which scores are computed exactly.

Then members of a list whose scores are numbers are sorted stably, the highest first (`stablySorted_descending`), and
the first of them are the best (`best_descending`).
-/

namespace Shelfmark

namespace Scalar

variable {α β : Type} [Scalar α] {a b c : α} {score : β → α} {xs : List β}

/-- The scalar can be compared with itself. -/
def IsNumber (a : α) : Prop := le a a = true

/-- Comparisons are transitive, only numbers can be compared, and of two numbers one is not greater than the other. -/
class IsOrdered (α : Type) [Scalar α] : Prop where
  le_trans : ∀ {a b c : α}, le a b = true → le b c = true → le a c = true
  le_total : ∀ {a b : α}, IsNumber a → IsNumber b → le a b = true ∨ le b a = true
  left : ∀ {a b : α}, le a b = true → IsNumber a
  right : ∀ {a b : α}, le a b = true → IsNumber b

/-- As many members of a list as are asked for, the highest scores first.  Equal scores stand as they did in the list,
and a score that is left out for an equal one stood behind it. -/
structure Best (score : β → α) (n : Nat) (xs ys : List β) : Prop where
  length : ys.length = min n xs.length
  nodup : ys.Nodup
  subset : ∀ x ∈ ys, x ∈ xs
  sorted : ys.Pairwise fun x y => le (score y) (score x) = true
  ties : ∀ {x y}, [x, y].Sublist ys → le (score x) (score y) = true → [x, y].Sublist xs
  leftOut : ∀ x ∈ ys, ∀ y ∈ xs, y ∉ ys →
    le (score y) (score x) = true ∧ (le (score x) (score y) = true → [x, y].Sublist xs)

/-- Scores decide, whatever they are scores of. -/
theorem descending_map {γ : Type} (f : γ → β) (zs : List γ) :
    descending score (zs.map f) = (descending (fun z => score (f z)) zs).map f :=
  (List.map_mergeSort (f := f) fun _ _ _ _ => rfl).symm

section Sorting

variable [IsOrdered α]

/-- The highest first, and what is no number last. -/
def descendingOrder (score : β → α) (x y : β) : Bool :=
  !le (score y) (score y) || le (score y) (score x)

theorem descendingOrder_trans {x y z : β} (hxy : descendingOrder score x y = true)
    (hyz : descendingOrder score y z = true) : descendingOrder score x z = true := by
  simp only [descendingOrder, Bool.or_eq_true, Bool.not_eq_true'] at *
  rcases hyz with hz | hyz
  · exact Or.inl hz
  · rcases hxy with hy | hxy
    · have hnumber : le (score y) (score y) = true := IsOrdered.right hyz
      rw [hy] at hnumber
      cases hnumber
    · exact Or.inr (IsOrdered.le_trans hyz hxy)

theorem descendingOrder_total (x y : β) : (descendingOrder score x y || descendingOrder score y x) = true := by
  simp only [descendingOrder, Bool.or_eq_true, Bool.not_eq_true']
  by_cases hx : le (score x) (score x) = true
  · by_cases hy : le (score y) (score y) = true
    · rcases IsOrdered.le_total hx hy with h | h
      · exact Or.inr (Or.inr h)
      · exact Or.inl (Or.inr h)
    · exact Or.inl (Or.inl (by simpa using hy))
  · exact Or.inr (Or.inl (by simpa using hx))

/-- **Members whose scores are numbers are sorted stably, the highest first.** -/
theorem stablySorted_descending (h : ∀ x ∈ xs, IsNumber (score x)) :
    StablySorted (fun x y => le (score y) (score x)) xs (descending score xs) := by
  refine stablySorted_mergeSort (s := descendingOrder score) (fun _ _ _ => descendingOrder_trans)
    descendingOrder_total fun x _ y hy => ?_
  have hnumber : le (score y) (score y) = true := h y hy
  simp [descendingOrder, hnumber]

/-- **The first members of a sorted list are the best ones.** -/
theorem best_descending (hxs : xs.Nodup) (h : ∀ x ∈ xs, IsNumber (score x)) (n : Nat) :
    Best score n xs ((descending score xs).take n) := by
  have hs := stablySorted_descending h
  have hfirst : ((descending score xs).take n).Sublist (descending score xs) := List.take_sublist n _
  refine ⟨?length, (hs.perm.nodup_iff.mpr hxs).sublist hfirst, fun x hx => hs.perm.subset (hfirst.subset hx),
    hs.sorted.sublist hfirst, fun hxy => hs.pair_sublist hxs (hxy.trans hfirst), ?leftOut⟩
  case length => rw [List.length_take, hs.perm.length_eq]
  case leftOut =>
    intro x hx y hy hout
    have hxy := pair_sublist_of_mem_take hx (hs.perm.symm.subset hy) hout
    exact ⟨by simpa using hs.sorted.sublist hxy, hs.pair_sublist hxs hxy⟩

end Sorting

/-! ## Doubles -/

section Doubles

open Float.Model (UnpackedFloat)

theorem le_float_eq (x y : Float) : le x y = x.toModel.unpack.le y.toModel.unpack := by
  show decide (x.le y = true) = _
  rw [Bool.decide_eq_true]
  show decide (x.toModel.le y.toModel = true) = _
  rw [Bool.decide_eq_true]
  rfl

/-- What is no number is not comparable. -/
theorem ne_notANumber_of_le {u v : UnpackedFloat} (h : u.le v = true) : u ≠ .notANumber ∧ v ≠ .notANumber := by
  constructor
  · rintro rfl
    cases v <;> cases h
  · rintro rfl
    rcases u with ⟨_ | _⟩ | _ | _ | ⟨_ | _, _, _, _⟩ <;> cases h

/-- Unpacked doubles that are numbers are not greater than themselves. -/
theorem unpacked_le_self {u : UnpackedFloat} (h : u ≠ .notANumber) : u.le u = true := by
  rw [Double.unpacked_le_eq h h]
  simpa using Double.rankLe_total (Double.rank u) (Double.rank u)

instance : IsOrdered Float where
  le_trans {a b c} hab hbc := by
    rw [le_float_eq] at *
    obtain ⟨ha, hb⟩ := ne_notANumber_of_le hab
    obtain ⟨_, hc⟩ := ne_notANumber_of_le hbc
    rw [Double.unpacked_le_eq ha hb] at hab
    rw [Double.unpacked_le_eq hb hc] at hbc
    rw [Double.unpacked_le_eq ha hc]
    exact Double.rankLe_trans hab hbc
  le_total {a b} ha hb := by
    simp only [IsNumber, le_float_eq] at *
    obtain ⟨ha, _⟩ := ne_notANumber_of_le ha
    obtain ⟨hb, _⟩ := ne_notANumber_of_le hb
    rw [Double.unpacked_le_eq ha hb, Double.unpacked_le_eq hb ha]
    simpa using Double.rankLe_total (Double.rank a.toModel.unpack) (Double.rank b.toModel.unpack)
  left {a b} h := by
    rw [le_float_eq] at h
    rw [IsNumber, le_float_eq]
    exact unpacked_le_self (ne_notANumber_of_le h).1
  right {a b} h := by
    rw [le_float_eq] at h
    rw [IsNumber, le_float_eq]
    exact unpacked_le_self (ne_notANumber_of_le h).2

end Doubles

/-! ## Exact scores -/

section Exact

variable {K : Type} [Field K] [LinearOrder K]

/-- The members of an ordered field as scores. -/
instance (priority := low) : Scalar K where
  ratio n d := n / d
  le a b := a ≤ b

@[simp] theorem le_exact {a b : K} : le a b = true ↔ a ≤ b := decide_eq_true_iff

@[simp] theorem lt_exact {a b : K} : lt a b = true ↔ a < b := by
  simp [lt, ← Bool.not_eq_true]

@[simp] theorem ratio_exact (n d : Nat) : (ratio n d : K) = n / d := rfl

theorem isNumber_exact (a : K) : IsNumber a := le_exact.mpr le_rfl

instance : IsOrdered K where
  le_trans hab hbc := le_exact.mpr ((le_exact.mp hab).trans (le_exact.mp hbc))
  le_total {a b} _ _ := (le_total a b).imp le_exact.mpr le_exact.mpr
  left _ := isNumber_exact _
  right _ := isNumber_exact _

@[simp] theorem zero_exact : (zero : K) = 0 := by
  simp [zero]

@[simp] theorem sum_exact (as : List K) : sum as = as.sum := by
  rw [sum, zero_exact, List.sum_eq_foldl]

@[simp] theorem isZero_exact {a : K} : isZero a = true ↔ a = 0 := by
  rw [isZero, Bool.and_eq_true, le_exact, le_exact, zero_exact]
  exact ⟨fun h => le_antisymm h.1 h.2, fun h => ⟨h.le, h.ge⟩⟩

@[simp] theorem one_exact : (one : K) = 1 := by
  simp [one]

end Exact

end Scalar

end Shelfmark
