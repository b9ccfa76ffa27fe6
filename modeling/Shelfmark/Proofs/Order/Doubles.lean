/-!
# The order of doubles

Doubles that are numbers are ordered by their rank: the class of the double (infinite, negative, zero, positive), and
within a class exponent and mantissa (`le_eq_rankLe`).  So "not greater than" is total and transitive among them.
-/

namespace Shelfmark.Double

open Float.Model (UnpackedFloat)

/-- Class, exponent and mantissa of a double, signed so that greater doubles have greater ranks. -/
def rank : UnpackedFloat → Int × Int × Int
  | .infinity .negative => (-2, 0, 0)
  | .finite .negative m e _ => (-1, -e, -(m : Int))
  | .zero _ => (0, 0, 0)
  | .notANumber => (0, 0, 0)
  | .finite .positive m e _ => (1, e, m)
  | .infinity .positive => (2, 0, 0)

/-- The lexicographic order of ranks. -/
def rankLe (a b : Int × Int × Int) : Bool :=
  decide (a.1 < b.1 ∨ a.1 = b.1 ∧ (a.2.1 < b.2.1 ∨ a.2.1 = b.2.1 ∧ a.2.2 ≤ b.2.2))

theorem rankLe_trans {a b c : Int × Int × Int} (h : rankLe a b = true) (h' : rankLe b c = true) :
    rankLe a c = true := by
  simp only [rankLe, decide_eq_true_eq] at *
  omega

theorem rankLe_total (a b : Int × Int × Int) : (rankLe a b || rankLe b a) = true := by
  simp only [rankLe, Bool.or_eq_true, decide_eq_true_eq]
  omega

/-- Exponents and mantissas are compared one after the other. -/
theorem isLE_then (e e' : Int) (m m' : Nat) :
    ((compare e e').then (compare m m')).isLE = decide (e < e' ∨ e = e' ∧ m ≤ m') := by
  rw [Bool.eq_iff_iff, decide_eq_true_eq]
  rcases Int.lt_trichotomy e e' with h | h | h
  · simp [Std.compare_eq_lt.mpr h, h]
  · subst h
    simp [Nat.isLE_compare]
  · have h₁ : ¬ e < e' := by omega
    have h₂ : e ≠ e' := by omega
    simp [Std.compare_eq_gt.mpr h, h₁, h₂]

theorem isLE_swap_then (e e' : Int) (m m' : Nat) :
    ((compare e e').then (compare m m')).swap.isLE = decide (e' < e ∨ e = e' ∧ m' ≤ m) := by
  have h : ((compare e e').then (compare m m')).swap = (compare e' e).then (compare m' m) := by
    rw [Ordering.swap_then, ← Std.OrientedCmp.eq_swap, ← Std.OrientedCmp.eq_swap]
  rw [h, isLE_then]
  simp only [eq_comm]

/-- Unpacked doubles that are numbers are ordered by their rank. -/
theorem unpacked_le_eq {a b : UnpackedFloat} (ha : a ≠ .notANumber) (hb : b ≠ .notANumber) :
    a.le b = rankLe (rank a) (rank b) := by
  -- unless both are finite with one sign, the classes decide
  rcases a with ⟨_ | _⟩ | _ | _ | ⟨_ | _, m, e, _⟩ <;> rcases b with ⟨_ | _⟩ | _ | _ | ⟨_ | _, m', e', _⟩ <;>
    first | rfl | exact absurd rfl ha | exact absurd rfl hb | skip
  case finite.negative.finite.negative =>
    show ((compare e e').then (compare m m')).swap.isLE = rankLe (-1, -e, -(m : Int)) (-1, -e', -(m' : Int))
    rw [isLE_swap_then, rankLe, decide_eq_decide]
    dsimp only
    omega
  case finite.positive.finite.positive =>
    show ((compare e e').then (compare m m')).isLE = rankLe (1, e, m) (1, e', m')
    rw [isLE_then, rankLe, decide_eq_decide]
    dsimp only
    omega

/-- **Doubles that are numbers are ordered by their rank.** -/
theorem le_eq_rankLe {x y : Float} (hx : x.isNaN = false) (hy : y.isNaN = false) :
    decide (x ≤ y) = rankLe (rank x.toModel.unpack) (rank y.toModel.unpack) := by
  have h : ∀ {z : Float}, z.isNaN = false → z.toModel.unpack ≠ .notANumber := by
    intro z hz he
    have : z.isNaN = true := by
      show z.toModel.unpack.isNaN = true
      rw [he]; rfl
    rw [hz] at this; cases this
  rw [← unpacked_le_eq (h hx) (h hy)]
  show decide (x.le y = true) = _
  rw [Bool.decide_eq_true]
  show decide (x.toModel ≤ y.toModel) = _
  show decide (x.toModel.le y.toModel = true) = _
  rw [Bool.decide_eq_true]
  rfl

end Shelfmark.Double
