import Mathlib.Data.Int.Log
import Mathlib.Data.Rat.Floor
import Shelfmark.Proofs.Decimal.Rounding

/-!
# The shortest digits of a double

`decimalPoint` finds the place of the first digit of a quotient (`decimalPoint_eq`).  From there the grids of one, two
and more digits are tried, and a point is taken only if it rounds to the double; on the grid of seventeen digits the
nearest point is always close enough.  So the digits that are found round to the double (`rounds_shortestDigits`).
-/

namespace Shelfmark.Decimal

/-! ## The place of the first digit -/

section Place

variable {num den : Nat}

/-- A scaled quotient is at least one if the power of ten is not too great. -/
theorem scaleTen_le_iff (hnum : 0 < num) (hden : 0 < den) (p : Int) :
    (scaleTen num den (-p)).2 ≤ (scaleTen num den (-p)).1 ↔ p ≤ Int.log 10 ((num : ℚ) / den) := by
  have hquotient : (0 : ℚ) < (num : ℚ) / den := by positivity
  have hpos : (0 : ℚ) < (scaleTen num den (-p)).2 := by exact_mod_cast scaleTen_den_pos hden num (-p)
  have hpower : (0 : ℚ) < 10 ^ p := by positivity
  rw [← Int.zpow_le_iff_le_log (by decide) hquotient, ← Nat.cast_le (α := ℚ), ← one_le_div hpos, scaleTen_ratio,
    zpow_neg, ← div_eq_mul_inv, one_le_div hpower, Nat.cast_ofNat]

/-- **The point is the place of the first digit.** -/
theorem decimalPoint_eq (hnum : 0 < num) (hden : 0 < den) {fuel : Nat} {guess : Int}
    (hlow : guess ≤ Int.log 10 ((num : ℚ) / den) + 1 + fuel) (hhigh : Int.log 10 ((num : ℚ) / den) + 1 ≤ guess + fuel) :
    decimalPoint num den fuel guess = Int.log 10 ((num : ℚ) / den) + 1 := by
  have hbelow := scaleTen_le_iff hnum hden
  generalize Int.log 10 ((num : ℚ) / den) = place at hlow hhigh hbelow
  induction fuel generalizing guess with
  | zero => simp only [decimalPoint]; omega
  | succ fuel ih =>
    have hnext := hbelow (guess - 1)
    rw [neg_sub] at hnext
    simp only [decimalPoint]
    split
    · rename_i hle
      rw [hbelow] at hle
      exact ih (by omega) (by omega)
    · rename_i hlt
      rw [hbelow] at hlt
      split
      · rename_i hle
        rw [← not_le, hnext] at hle
        exact ih (by omega) (by omega)
      · rename_i hge
        rw [not_lt, hnext] at hge
        omega

end Place

/-! ## Points of a grid -/

/-- The number that digits and a point stand for. -/
def Digits.value (d : Digits) : ℚ := (Nat.ofDigitChars 10 d.digits 0 : ℚ) * 10 ^ (d.point - d.digits.length)

/-- A point of the grid is written with its digits. -/
theorem value_onGrid {k count : Nat} (hcount : 0 < count) (hlow : 10 ^ (count - 1) ≤ k) (hhigh : k ≤ 10 ^ count)
    (point : Int) : (Digits.onGrid k count point).value = k * 10 ^ (point - count) := by
  unfold Digits.onGrid
  split
  · rename_i hk
    have hone : Nat.ofDigitChars 10 ['1'] 0 = 1 := by decide
    simp only [beq_iff_eq, Nat.pow_eq] at hk
    subst hk
    simp only [Digits.value, hone, List.length_singleton, Nat.cast_one, one_mul, add_sub_cancel_right, Nat.cast_pow,
      Nat.cast_ofNat]
    rw [← zpow_natCast, ← zpow_add₀ (by norm_num), add_sub_cancel]
  · rename_i hk
    simp only [beq_iff_eq, Nat.pow_eq] at hk
    have hlength : (Nat.toDigits 10 k).length = count := by
      have hle := (Nat.length_toDigits_le_iff (n := k) (by decide : 1 < 10) hcount).mpr (by omega)
      by_contra hne
      rcases Nat.eq_zero_or_pos (count - 1) with hzero | hpos
      · have := @Nat.length_toDigits_pos 10 k
        omega
      · have := (Nat.length_toDigits_le_iff (n := k) (by decide : 1 < 10) hpos).mp (by omega)
        omega
    simp only [Digits.value, Nat.ofDigitChars_ten_toDigits, hlength]

theorem isDigit_of_mem_onGrid {k count : Nat} {point : Int} {c : Char} (h : c ∈ (Digits.onGrid k count point).digits) :
    c.isDigit = true := by
  unfold Digits.onGrid at h
  split at h
  · rw [List.mem_singleton.mp h]
    rfl
  · exact Nat.isDigit_of_mem_toDigits (by decide) (by decide) h

/-- The points of a grid next to a number have as many digits as the number. -/
theorem roundDiv_bounds {n d count : Nat} (hlow : 10 ^ (count - 1) ≤ n / d) (hhigh : n / d < 10 ^ count) :
    10 ^ (count - 1) ≤ roundDiv n d ∧ roundDiv n d ≤ 10 ^ count := by
  rcases roundDiv_eq n d with h | h <;> omega

/-! ## The search -/

section Search

variable {m : Nat} {e point : Int}

/-- A number has its first digit at a place. -/
def FirstDigitAt (q : ℚ) (point : Int) : Prop := 10 ^ (point - 1) ≤ q ∧ q < 10 ^ point

/-- A number in units of a grid of some digits has this many digits before the point. -/
theorem FirstDigitAt.scaled (h : FirstDigitAt (m * 2 ^ e) point) {count : Nat} (hcount : 0 < count) :
    let n := (scaleTen (Interval.of m e).num (Interval.of m e).den (count - point)).1
    let d := (scaleTen (Interval.of m e).num (Interval.of m e).den (count - point)).2
    (n : ℚ) / d = m * 2 ^ e * 10 ^ (count - point) ∧ 10 ^ (count - 1) ≤ n / d ∧ n / d < 10 ^ count := by
  intro n d
  have hscaled : (n : ℚ) / d = m * 2 ^ e * 10 ^ (count - point) := by rw [scaleTen_ratio, Interval.num_div_den]
  have hunit : (0 : ℚ) < 10 ^ ((count : Int) - point) := by positivity
  have hdpos : 0 < d := scaleTen_den_pos (Interval.den_pos m e) _ _
  have hd : (0 : ℚ) < d := by exact_mod_cast hdpos
  refine ⟨hscaled, ?_, ?_⟩
  · rw [Nat.le_div_iff_mul_le hdpos]
    have hle : (10 : ℚ) ^ (count - 1) ≤ n / d := by
      calc (10 : ℚ) ^ (count - 1) = 10 ^ (point - 1) * 10 ^ ((count : Int) - point) := by
            rw [← zpow_natCast, ← zpow_add₀ (by norm_num)]
            congr 1
            omega
        _ ≤ n / d := by
            rw [hscaled]
            exact mul_le_mul_of_nonneg_right h.1 hunit.le
    exact_mod_cast (le_div_iff₀ hd).mp hle
  · rw [Nat.div_lt_iff_lt_mul hdpos]
    have hlt : (n : ℚ) / d < 10 ^ count := by
      calc (n : ℚ) / d < 10 ^ point * 10 ^ ((count : Int) - point) := by
            rw [hscaled]
            exact mul_lt_mul_of_pos_right h.2 hunit
        _ = 10 ^ count := by rw [← zpow_natCast, ← zpow_add₀ (by norm_num), add_sub_cancel]
    exact_mod_cast (div_lt_iff₀ hd).mp hlt

/-- The nearest point of the grid of seventeen digits rounds to the double. -/
theorem rounds_nearest (hm : IsDouble m e) (h : FirstDigitAt (m * 2 ^ e) point) {k : Nat}
    (hk : |(k : ℚ) - m * 2 ^ e * 10 ^ (17 - point)| ≤ 1 / 2) : Rounds m e (k * 10 ^ (point - 17)) := by
  have hunit : (0 : ℚ) < 10 ^ (point - 17) := by positivity
  have hcancel : (10 : ℚ) ^ (17 - point) * 10 ^ (point - 17) = 1 := by
    rw [← zpow_add₀ (by norm_num), show 17 - point + (point - 17) = 0 by omega, zpow_zero]
  have herror : |(k : ℚ) * 10 ^ (point - 17) - m * 2 ^ e| ≤ 1 / 2 * 10 ^ (point - 17) := by
    have hfactor : (k : ℚ) * 10 ^ (point - 17) - m * 2 ^ e =
        (k - m * 2 ^ e * 10 ^ (17 - point)) * 10 ^ (point - 17) := by
      rw [sub_mul, mul_assoc _ ((10 : ℚ) ^ (17 - point)), hcancel, mul_one]
    rw [hfactor, abs_mul, abs_of_pos hunit]
    exact mul_le_mul_of_nonneg_right hk hunit.le
  refine rounds_of_close hm (herror.trans_lt ?_)
  have hfirst : (10 : ℚ) ^ (point - 1) = 10 ^ 16 * 10 ^ (point - 17) := by
    rw [← zpow_natCast, ← zpow_add₀ (by norm_num)]
    congr 1
    omega
  calc (1 : ℚ) / 2 * 10 ^ (point - 17) < 10 ^ 16 * 10 ^ (point - 17) / 2 ^ 54 := by
        rw [lt_div_iff₀ (by norm_num)]
        nlinarith
    _ ≤ m * 2 ^ e / 2 ^ 54 := by
        rw [← hfirst]
        exact div_le_div_of_nonneg_right h.1 (by norm_num)

/-- Whatever grid the search ends on, the digits are those of a point of it. -/
theorem shortestFrom_eq_onGrid (i : Interval) (point : Int) : ∀ fuel count : Nat,
    ∃ k count', shortestFrom i point fuel count = .onGrid k count' point
  | 0, count => ⟨_, _, rfl⟩
  | fuel + 1, count => by
    simp only [shortestFrom]
    split
    · exact ⟨_, _, rfl⟩
    · exact shortestFrom_eq_onGrid i point fuel (count + 1)

/-- **The digits that the search finds round to the double.** -/
theorem rounds_shortestFrom (hm : IsDouble m e) (h : FirstDigitAt (m * 2 ^ e) point) :
    ∀ {fuel count : Nat}, fuel + count = 17 → 0 < count →
      Rounds m e (shortestFrom (Interval.of m e) point fuel count).value
  | 0, count, hsum, hcount => by
    obtain ⟨hscaled, hlow, hhigh⟩ := h.scaled hcount
    obtain ⟨hlow', hhigh'⟩ := roundDiv_bounds hlow hhigh
    simp only [shortestFrom]
    rw [value_onGrid hcount hlow' hhigh']
    have hseventeen : count = 17 := by omega
    subst hseventeen
    refine rounds_nearest hm h ?_
    have herror := abs_roundDiv_sub_le
      (scaleTen_den_pos (Interval.den_pos m e) (Interval.of m e).num ((17 : ℕ) - point))
      (scaleTen (Interval.of m e).num (Interval.of m e).den ((17 : ℕ) - point)).1
    rwa [hscaled] at herror
  | fuel + 1, count, hsum, hcount => by
    obtain ⟨hscaled, hlow, hhigh⟩ := h.scaled hcount
    obtain ⟨hlow', hhigh'⟩ := roundDiv_bounds hlow hhigh
    simp only [shortestFrom, neg_sub]
    -- the point on the other side of the number
    generalize hother : (if roundDiv _ _ == _ then _ else _) = other
    have hbounds : 10 ^ (count - 1) ≤ other ∧ other ≤ 10 ^ count := by
      rw [← hother]
      split <;> omega
    by_cases hnearest : (Interval.of m e).holds (roundDiv
        (scaleTen (Interval.of m e).num (Interval.of m e).den (count - point)).1
        (scaleTen (Interval.of m e).num (Interval.of m e).den (count - point)).2) (point - count) = true
    · rw [if_pos hnearest]
      dsimp only
      rw [value_onGrid hcount hlow' hhigh']
      exact (Interval.holds_iff hm.pos e _ _).mp hnearest
    · rw [if_neg hnearest]
      by_cases hholds : (Interval.of m e).holds other (point - count) = true
      · rw [if_pos hholds]
        dsimp only
        rw [value_onGrid hcount hbounds.1 hbounds.2]
        exact (Interval.holds_iff hm.pos e _ _).mp hholds
      · rw [if_neg hholds]
        exact rounds_shortestFrom hm h (by omega) (by omega)

end Search

/-! ## The digits -/

section Digits

variable {m : Nat} {e : Int}

/-- The first digit of a double is at most a thousand places from the point. -/
theorem log_bounds (h : IsDouble m e) :
    -1074 ≤ Int.log 10 ((m : ℚ) * 2 ^ e) ∧ Int.log 10 ((m : ℚ) * 2 ^ e) < 1024 := by
  have hunit : (0 : ℚ) < 2 ^ e := by positivity
  have hm : (1 : ℚ) ≤ m := by exact_mod_cast h.pos
  have hm' : (m : ℚ) ≤ 2 ^ 53 := by exact_mod_cast h.lt.le
  have hpos : (0 : ℚ) < m * 2 ^ e := by positivity
  constructor
  · rw [← Int.zpow_le_iff_le_log (by decide) hpos, Nat.cast_ofNat]
    calc (10 : ℚ) ^ (-1074 : Int) ≤ 2 ^ (-1074 : Int) := by
          rw [zpow_neg, zpow_neg]
          exact inv_anti₀ (by positivity) (zpow_le_zpow_left₀ (by norm_num) (by norm_num) (by norm_num))
      _ ≤ 2 ^ e := zpow_le_zpow_right₀ (by norm_num) h.low
      _ ≤ m * 2 ^ e := le_mul_of_one_le_left hunit.le hm
  · rw [← Int.lt_zpow_iff_log_lt (by decide) hpos, Nat.cast_ofNat]
    calc (m : ℚ) * 2 ^ e ≤ 2 ^ 53 * 2 ^ (971 : Int) := by
          exact mul_le_mul hm' (zpow_le_zpow_right₀ (by norm_num) h.high) hunit.le (by norm_num)
      _ = 2 ^ (1024 : Int) := by
          rw [← zpow_natCast, ← zpow_add₀ (by norm_num)]
          rfl
      _ < 10 ^ (1024 : Int) := zpow_lt_zpow_left₀ (by norm_num) (by norm_num) (by norm_num)

/-- **The shortest digits of a double round to it.** -/
theorem rounds_shortestDigits (h : IsDouble m e) : Rounds m e (shortestDigits m e).value := by
  have hpos : (0 : ℚ) < m * 2 ^ e := by
    have hm : (0 : ℚ) < m := by exact_mod_cast h.pos
    positivity
  have hden := Interval.den_pos m e
  have hnum : 0 < (Interval.of m e).num := by
    by_contra hzero
    have hratio := Interval.num_div_den m e
    rw [Nat.eq_zero_of_not_pos hzero, Nat.cast_zero, zero_div] at hratio
    exact hpos.ne hratio
  obtain ⟨hlow, hhigh⟩ := log_bounds h
  have hlog2 : m.log2 < 53 := (Nat.log2_lt h.pos.ne').mpr h.lt
  have hlow' := h.low
  have hhigh' := h.high
  have hpoint : decimalPoint (Interval.of m e).num (Interval.of m e).den 2200 (((m.log2 : Int) + e) * 3 / 10) =
      Int.log 10 ((m : ℚ) * 2 ^ e) + 1 := by
    rw [← Interval.num_div_den m e] at hlow hhigh ⊢
    exact decimalPoint_eq hnum hden (by omega) (by omega)
  unfold shortestDigits
  dsimp only
  rw [hpoint]
  refine rounds_shortestFrom h ⟨?_, ?_⟩ rfl Nat.one_pos
  · rw [add_sub_cancel_right]
    exact_mod_cast Int.zpow_log_le_self (by decide) hpos
  · exact_mod_cast Int.lt_zpow_succ_log_self (by decide) ((m : ℚ) * 2 ^ e)

theorem isDigit_of_mem_shortestDigits {c : Char} (h : c ∈ (shortestDigits m e).digits) : c.isDigit = true := by
  obtain ⟨k, count, hk⟩ := shortestFrom_eq_onGrid (Interval.of m e)
    (decimalPoint (Interval.of m e).num (Interval.of m e).den 2200 (((m.log2 : Int) + e) * 3 / 10)) 16 1
  rw [shortestDigits, hk] at h
  exact isDigit_of_mem_onGrid h

end Digits

end Shelfmark.Decimal
