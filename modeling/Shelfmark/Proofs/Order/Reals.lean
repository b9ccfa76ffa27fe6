import Mathlib.Analysis.Real.Sqrt
import Mathlib.Analysis.SpecialFunctions.Log.Basic
import Shelfmark.Proofs.Order.Scalars

/-!
# Real numbers as scores

With real numbers scores are computed exactly, roots and logarithms included.

Checked numbers (`Checked`) are computed in the same way, but are undefined where a number is divided by zero, where a
root of a negative number is taken, or the logarithm of a number below one; and what is computed from an undefined
number is undefined.  So a result that is defined was computed without any of these.
-/

namespace Shelfmark

/-- The real numbers as scores. -/
noncomputable instance : AnalyticScalar ℝ where
  toScalar := inferInstance
  sqrt := Real.sqrt
  log := Real.log

@[simp] theorem AnalyticScalar.sqrt_real (x : ℝ) : AnalyticScalar.sqrt x = √x := rfl

/-! ## Checked numbers -/

/-- A real number, or nothing where it is not defined. -/
def Checked := Option ℝ

namespace Checked

/-- A number that is defined. -/
def of (x : ℝ) : Checked := some x

/-- Something is computed from a number if it is defined. -/
def andThen (x : Checked) (f : ℝ → Checked) : Checked := x.bind f

/-- The quotient of two numbers, unless the second one is zero. -/
noncomputable def quotient (x y : ℝ) : Checked := if y = 0 then none else of (x / y)

noncomputable instance : AnalyticScalar Checked where
  add x y := x.andThen fun x => y.andThen fun y => of (x + y)
  sub x y := x.andThen fun x => y.andThen fun y => of (x - y)
  mul x y := x.andThen fun x => y.andThen fun y => of (x * y)
  div x y := x.andThen fun x => y.andThen fun y => quotient x y
  ratio n d := quotient n d
  le x y := x.any fun x => y.any fun y => Scalar.le x y
  sqrt x := x.andThen fun x => if x < 0 then none else of √x
  log x := x.andThen fun x => if x < 1 then none else of (Real.log x)

variable {x y : ℝ}

@[simp] theorem mul_of (x y : ℝ) : of x * of y = of (x * y) := rfl

@[simp] theorem le_of (x y : ℝ) : Scalar.le (of x) (of y) = Scalar.le x y := rfl

theorem div_of (h : y ≠ 0) : of x / of y = of (x / y) := if_neg h

theorem ratio_of {n d : Nat} (h : d ≠ 0) : (Scalar.ratio n d : Checked) = of (Scalar.ratio n d) :=
  if_neg (Nat.cast_ne_zero.mpr h)

theorem sqrt_of (h : 0 ≤ x) : AnalyticScalar.sqrt (of x) = of √x := if_neg (not_lt.mpr h)

theorem log_of (h : 1 ≤ x) : AnalyticScalar.log (of x) = of (Real.log x) := if_neg (not_lt.mpr h)

@[simp] theorem zero_of : (Scalar.zero : Checked) = of 0 := by
  rw [Scalar.zero, ratio_of one_ne_zero]
  simp

@[simp] theorem isZero_of (x : ℝ) : Scalar.isZero (of x) = Scalar.isZero x := by
  simp only [Scalar.isZero, zero_of, le_of, Scalar.zero_exact]

/-- Numbers that are defined have a sum. -/
theorem sum_of (xs : List ℝ) : Scalar.sum (xs.map of) = of xs.sum := by
  have hfold : ∀ (xs : List ℝ) (x : ℝ), (xs.map of).foldl (· + ·) (of x) = of (xs.foldl (· + ·) x) := by
    intro xs
    induction xs with
    | nil => exact fun x => rfl
    | cons y ys ih => exact fun x => ih (x + y)
  rw [Scalar.sum, zero_of, hfold, List.sum_eq_foldl]

end Checked

end Shelfmark
