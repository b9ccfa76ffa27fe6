import Mathlib.Algebra.Order.Field.Power
import Mathlib.Tactic.FieldSimp
import Mathlib.Tactic.Linarith
import Mathlib.Tactic.Positivity
import Mathlib.Tactic.Ring
import Shelfmark.Decimal.Text

/-!
# Numbers that round to a double

- Quotients of naturals are scaled exactly (`scaleTwo_ratio`, `scaleTen_ratio`), and `roundDiv` is off by a half at
  most (`abs_roundDiv_sub_le`);
- the numbers that round to a double lie in an interval around it (`Rounds`), and numbers close enough to the double lie
  in it (`rounds_of_close`);
- no number rounds to two different doubles (`Rounds.unique`);
- `Interval.holds` finds out which points of a decimal grid round to a double (`Interval.holds_iff`).
-/

namespace Shelfmark.Decimal

/-! ## Quotients -/

section Quotients

variable {num den n d : Nat}

/-- A quotient scaled by a power of a base, in the way of `scaleTwo` and `scaleTen`. -/
def scaleBy (base num den : Nat) (shift : Int) : Nat × Nat :=
  if 0 ≤ shift then (num * Nat.pow base shift.toNat, den) else (num, den * Nat.pow base (-shift).toNat)

/-- A quotient is scaled exactly. -/
theorem scaleBy_ratio {base : Nat} (hbase : 0 < base) (num den : Nat) (shift : Int) :
    ((scaleBy base num den shift).1 : ℚ) / (scaleBy base num den shift).2 = num / den * (base : ℚ) ^ shift := by
  have hne : (base : ℚ) ≠ 0 := by exact_mod_cast hbase.ne'
  unfold scaleBy
  split
  · rename_i h
    obtain ⟨k, rfl⟩ := Int.eq_ofNat_of_zero_le h
    simp only [Nat.pow_eq, Int.toNat_natCast, Nat.cast_mul, Nat.cast_pow, zpow_natCast]
    ring
  · rename_i h
    obtain ⟨k, hk⟩ := Int.eq_ofNat_of_zero_le (by omega : 0 ≤ -shift)
    have hshift : shift = -(k : Int) := by omega
    subst hshift
    simp only [Nat.pow_eq, neg_neg, Int.toNat_natCast, Nat.cast_mul, Nat.cast_pow, zpow_neg, zpow_natCast]
    rw [div_mul_eq_div_div, div_eq_mul_inv (_ / _)]

theorem scaleBy_den_pos {base : Nat} (hbase : 0 < base) (h : 0 < den) (num : Nat) (shift : Int) :
    0 < (scaleBy base num den shift).2 := by
  unfold scaleBy
  split
  · exact h
  · exact Nat.mul_pos h (Nat.pow_pos hbase)

theorem scaleTwo_ratio (num den : Nat) (shift : Int) :
    ((scaleTwo num den shift).1 : ℚ) / (scaleTwo num den shift).2 = num / den * 2 ^ shift := by
  exact_mod_cast scaleBy_ratio (by decide : 0 < 2) num den shift

theorem scaleTen_ratio (num den : Nat) (shift : Int) :
    ((scaleTen num den shift).1 : ℚ) / (scaleTen num den shift).2 = num / den * 10 ^ shift := by
  exact_mod_cast scaleBy_ratio (by decide : 0 < 10) num den shift

theorem scaleTwo_den_pos (h : 0 < den) (num : Nat) (shift : Int) : 0 < (scaleTwo num den shift).2 :=
  scaleBy_den_pos (by decide : 0 < 2) h num shift

theorem scaleTen_den_pos (h : 0 < den) (num : Nat) (shift : Int) : 0 < (scaleTen num den shift).2 :=
  scaleBy_den_pos (by decide : 0 < 10) h num shift

theorem scaleTwo_den (num num' den : Nat) (shift : Int) :
    (scaleTwo num den shift).2 = (scaleTwo num' den shift).2 := by
  unfold scaleTwo
  split <;> rfl

/-- The nearest integer is the integer below or the next one. -/
theorem roundDiv_eq (n d : Nat) : roundDiv n d = n / d ∨ roundDiv n d = n / d + 1 := by
  unfold roundDiv
  dsimp only
  split
  · exact Or.inr rfl
  · exact Or.inl rfl

/-- **The nearest integer is off by a half at most.** -/
theorem abs_roundDiv_sub_le (hd : 0 < d) (n : Nat) : |(roundDiv n d : ℚ) - n / d| ≤ 1 / 2 := by
  have hpos : (0 : ℚ) < d := by exact_mod_cast hd
  have hn : (n : ℚ) = d * (n / d : ℕ) + (n % d : ℕ) := by exact_mod_cast (Nat.div_add_mod n d).symm
  have hquotient : (n : ℚ) / d = (n / d : ℕ) + (n % d : ℕ) / d := by
    rw [hn]
    field_simp
  have hrest : ((n % d : ℕ) : ℚ) < d := by exact_mod_cast Nat.mod_lt n hd
  have hfraction : ((n % d : ℕ) : ℚ) / d * d = (n % d : ℕ) := by field_simp
  unfold roundDiv
  dsimp only
  rw [hquotient, abs_le]
  split
  · rename_i h
    have hhalf : (d : ℚ) ≤ 2 * (n % d : ℕ) := by
      rw [Bool.or_eq_true, Bool.and_eq_true, decide_eq_true_eq, beq_iff_eq] at h
      rcases h with h | ⟨h, _⟩ <;> exact_mod_cast (by omega : d ≤ 2 * (n % d))
    push_cast
    constructor <;> nlinarith
  · rename_i h
    have hhalf : 2 * ((n % d : ℕ) : ℚ) ≤ d := by
      rw [Bool.or_eq_true, not_or, decide_eq_true_eq] at h
      exact_mod_cast (by omega : 2 * (n % d) ≤ d)
    have hzero : (0 : ℚ) ≤ (n % d : ℕ) := by positivity
    constructor <;> nlinarith

end Quotients

/-! ## Doubles and the numbers that round to them -/

/-- A mantissa and an exponent that make a positive double: the mantissa has 53 binary digits, or fewer at the least
exponent. -/
structure IsDouble (m : Nat) (e : Int) : Prop where
  pos : 0 < m
  lt : m < 2 ^ 53
  low : -1074 ≤ e
  high : e ≤ 971
  full : 2 ^ 52 ≤ m ∨ e = -1074

/-- How far the numbers that round to a double reach below it, in units of its exponent: half a unit, and a quarter
where the doubles below lie twice as close. -/
def stepBelow (m : Nat) (e : Int) : ℚ := if m = 2 ^ 52 ∧ -1074 < e then 1 / 4 else 1 / 2

/-- A number rounds to the double `m * 2 ^ e`; a number halfway between two doubles rounds to the even mantissa. -/
structure Rounds (m : Nat) (e : Int) (q : ℚ) : Prop where
  lower : (m - stepBelow m e) * 2 ^ e ≤ q
  upper : q ≤ (m + 1 / 2) * 2 ^ e
  lower_lt : m % 2 = 1 → (m - stepBelow m e) * 2 ^ e < q
  lt_upper : m % 2 = 1 → q < (m + 1 / 2) * 2 ^ e

section Rounds

variable {m m' : Nat} {e e' : Int} {q : ℚ}

theorem stepBelow_le (m : Nat) (e : Int) : stepBelow m e ≤ 1 / 2 := by
  unfold stepBelow
  split <;> norm_num

theorem Rounds.pos (hm : IsDouble m e) (h : Rounds m e q) : 0 < q := by
  have hunit : (0 : ℚ) < 2 ^ e := by positivity
  have hone : (1 : ℚ) ≤ m := by exact_mod_cast hm.pos
  have hstep := stepBelow_le m e
  exact (mul_pos (by linarith) hunit).trans_le h.lower

/-- A number that is closer to a double than a part in `2 ^ 54` rounds to it. -/
theorem rounds_of_close (h : IsDouble m e) (hq : |q - m * 2 ^ e| < m * 2 ^ e / 2 ^ 54) : Rounds m e q := by
  have hunit : (0 : ℚ) < 2 ^ e := by positivity
  have hm : (m : ℚ) + 1 ≤ 2 ^ 53 := by exact_mod_cast h.lt
  rw [abs_lt] at hq
  have habove : (m : ℚ) * 2 ^ e / 2 ^ 54 < 1 / 2 * 2 ^ e := by
    rw [div_lt_iff₀ (by norm_num)]
    nlinarith
  have hbelow : (m : ℚ) * 2 ^ e / 2 ^ 54 ≤ stepBelow m e * 2 ^ e := by
    rw [div_le_iff₀ (by norm_num)]
    unfold stepBelow
    split
    · rename_i hleast
      rw [hleast.1]
      push_cast
      nlinarith
    · nlinarith
  have hlower : (m - stepBelow m e) * 2 ^ e < q := by nlinarith
  have hupper : q < (m + 1 / 2) * 2 ^ e := by nlinarith
  exact ⟨hlower.le, hupper.le, fun _ => hlower, fun _ => hupper⟩

/-- What rounds to a double lies below what rounds to a greater one with the same exponent. -/
theorem below_of_lt (e : Int) {r : Nat} (hr : m + r ≤ m') :
    ((m : ℚ) + (r - 1 / 2)) * 2 ^ e ≤ (m' - stepBelow m' e) * 2 ^ e := by
  have hunit : (0 : ℚ) < 2 ^ e := by positivity
  have hm : (m : ℚ) + r ≤ m' := by exact_mod_cast hr
  have hstep := stepBelow_le m' e
  exact mul_le_mul_of_nonneg_right (by linarith) hunit.le

/-- What rounds to a double lies below what rounds to one with a greater exponent. -/
theorem below_of_exponent_lt (hlow : -1074 ≤ e) (h' : IsDouble m' e') (he : e < e') {r : Nat}
    (hr : m + r ≤ 2 ^ 53) : ((m : ℚ) + (r - 1 / 2)) * 2 ^ e ≤ (m' - stepBelow m' e') * 2 ^ e' := by
  have hunit : (0 : ℚ) < 2 ^ e := by positivity
  have hm : (m : ℚ) + r ≤ 2 ^ 53 := by exact_mod_cast hr
  have hfull : 2 ^ 52 ≤ m' := h'.full.resolve_right (by omega)
  have htwice : (2 : ℚ) * 2 ^ e ≤ 2 ^ e' := by
    rw [mul_comm, ← zpow_add_one₀ (by norm_num)]
    exact zpow_le_zpow_right₀ (by norm_num) (by omega)
  have hbelow : (2 : ℚ) ^ 52 - 1 / 4 ≤ m' - stepBelow m' e' := by
    unfold stepBelow
    split
    · rename_i hleast
      rw [hleast.1]
      push_cast
      exact le_rfl
    · rename_i hleast
      have hne : m' ≠ 2 ^ 52 := fun heq => hleast ⟨heq, by omega⟩
      have hnext : (2 : ℚ) ^ 52 + 1 ≤ m' := by exact_mod_cast Nat.lt_of_le_of_ne hfull hne.symm
      linarith
  calc ((m : ℚ) + (r - 1 / 2)) * 2 ^ e ≤ (2 ^ 52 - 1 / 4) * (2 * 2 ^ e) := by nlinarith
    _ ≤ (m' - stepBelow m' e') * 2 ^ e' := by gcongr

/-- No number rounds to a double and to one above it.  A half rounds to the even mantissa, and of two neighbours one is
odd. -/
theorem Rounds.not_below {next : Nat} (hnext : next % 2 = 0 ∨ next = m') (hlt : m < next)
    (hbelow : ∀ r : Nat, m + r ≤ next → ((m : ℚ) + (r - 1 / 2)) * 2 ^ e ≤ (m' - stepBelow m' e') * 2 ^ e')
    (h : Rounds m e q) (h' : Rounds m' e' q) : False := by
  have hunit : (0 : ℚ) < 2 ^ e := by positivity
  have hone := hbelow 1 hlt
  norm_num at hone
  by_cases hm : m % 2 = 1
  · exact absurd (h.lt_upper hm) (by linarith [h'.lower])
  · by_cases hm' : m' % 2 = 1
    · exact absurd (h'.lower_lt hm') (by linarith [h.upper])
    · have htwo := hbelow 2 (by omega)
      push_cast at htwo
      nlinarith [h.upper, h'.lower]

/-- **No number rounds to two different doubles.** -/
theorem Rounds.unique (hm : IsDouble m e) (hm' : IsDouble m' e') (h : Rounds m e q) (h' : Rounds m' e' q) :
    m = m' ∧ e = e' := by
  rcases lt_trichotomy e e' with he | rfl | he
  · exact (Rounds.not_below (Or.inl (by norm_num)) hm.lt
      (fun r hr => below_of_exponent_lt hm.low hm' he hr) h h').elim
  · rcases lt_trichotomy m m' with hlt | rfl | hlt
    · exact (Rounds.not_below (Or.inr rfl) hlt (fun r hr => below_of_lt e hr) h h').elim
    · exact ⟨rfl, rfl⟩
    · exact (Rounds.not_below (Or.inr rfl) hlt (fun r hr => below_of_lt e hr) h' h).elim
  · exact (Rounds.not_below (Or.inl (by norm_num)) hm'.lt
      (fun r hr => below_of_exponent_lt hm'.low hm he hr) h' h).elim

end Rounds

/-! ## The interval of a double -/

namespace Interval

/-- A point of a decimal grid is compared with the ends of an interval. -/
theorem holds_iff_ends {i : Interval} (hden : 0 < i.den) (k : Nat) (shift : Int) : i.holds k shift = true ↔
    if i.closed then
      ((i.num - i.below : Nat) : ℚ) / i.den ≤ k * 10 ^ shift ∧ (k : ℚ) * 10 ^ shift ≤ (i.num + i.above : Nat) / i.den
    else ((i.num - i.below : Nat) : ℚ) / i.den < k * 10 ^ shift ∧
      (k : ℚ) * 10 ^ shift < (i.num + i.above : Nat) / i.den := by
  have hpos : (0 : ℚ) < i.den := by exact_mod_cast hden
  have hpos' : (0 : ℚ) < (scaleTen k 1 shift).2 := by exact_mod_cast scaleTen_den_pos Nat.one_pos k shift
  have hpoint : (k : ℚ) * 10 ^ shift = (scaleTen k 1 shift).1 / (scaleTen k 1 shift).2 := by
    rw [scaleTen_ratio, Nat.cast_one, div_one]
  rw [hpoint, div_le_div_iff₀ hpos hpos', div_le_div_iff₀ hpos' hpos, div_lt_div_iff₀ hpos hpos',
    div_lt_div_iff₀ hpos' hpos]
  unfold holds
  dsimp only
  split
  · rw [Bool.and_eq_true, decide_eq_true_eq, decide_eq_true_eq]
    exact and_congr (by exact_mod_cast Iff.rfl) (by exact_mod_cast Iff.rfl)
  · rw [Bool.and_eq_true, decide_eq_true_eq, decide_eq_true_eq]
    exact and_congr (by exact_mod_cast Iff.rfl) (by exact_mod_cast Iff.rfl)

theorem den_pos (m : Nat) (e : Int) : 0 < (of m e).den := scaleTwo_den_pos (by decide) _ e

/-- The interval of a double is placed around it. -/
theorem num_div_den (m : Nat) (e : Int) : ((of m e).num : ℚ) / (of m e).den = m * 2 ^ e := by
  show ((scaleTwo (4 * m) 4 e).1 : ℚ) / (scaleTwo (4 * m) 4 e).2 = _
  rw [scaleTwo_ratio]
  push_cast
  ring

/-- The unit of the interval of a double is a quarter of the unit of the double. -/
theorem unit_div_den (m : Nat) (e : Int) : ((scaleTwo 1 4 e).1 : ℚ) / (of m e).den = 2 ^ e / 4 := by
  show ((scaleTwo 1 4 e).1 : ℚ) / (scaleTwo (4 * m) 4 e).2 = _
  rw [scaleTwo_den (4 * m) 1, scaleTwo_ratio]
  push_cast
  ring

theorem upper_div_den (m : Nat) (e : Int) :
    (((of m e).num + (of m e).above : Nat) : ℚ) / (of m e).den = (m + 1 / 2) * 2 ^ e := by
  have habove : (of m e).above = 2 * (scaleTwo 1 4 e).1 := rfl
  rw [Nat.cast_add, add_div, num_div_den, habove, Nat.cast_mul, mul_div_assoc, unit_div_den]
  push_cast
  ring

/-- The lower end of the interval does not fall below zero. -/
theorem lower_div_den {m : Nat} (hm : 0 < m) (e : Int) :
    (((of m e).num - (of m e).below : Nat) : ℚ) / (of m e).den = (m - stepBelow m e) * 2 ^ e := by
  have hden : (0 : ℚ) < (of m e).den := by exact_mod_cast den_pos m e
  have hunit : (0 : ℚ) < 2 ^ e := by positivity
  have hbelow : ((of m e).below : ℚ) / (of m e).den = stepBelow m e * 2 ^ e := by
    have hcases : (of m e).below =
        if m == Nat.pow 2 52 && decide (-1074 < e) then (scaleTwo 1 4 e).1 else 2 * (scaleTwo 1 4 e).1 := rfl
    rw [hcases, stepBelow]
    by_cases hleast : m = 2 ^ 52 ∧ -1074 < e
    · rw [if_pos (by simpa using hleast), if_pos hleast, unit_div_den]
      ring
    · rw [if_neg (by simpa using hleast), if_neg hleast, Nat.cast_mul, mul_div_assoc, unit_div_den]
      push_cast
      ring
  have hle : (of m e).below ≤ (of m e).num := by
    have hm' : (1 : ℚ) ≤ m := by exact_mod_cast hm
    have hstep := stepBelow_le m e
    have hratio : ((of m e).below : ℚ) / (of m e).den ≤ (of m e).num / (of m e).den := by
      rw [hbelow, num_div_den]
      exact mul_le_mul_of_nonneg_right (by linarith) hunit.le
    exact_mod_cast (div_le_div_iff_of_pos_right hden).mp hratio
  rw [Nat.cast_sub hle, sub_div, num_div_den, hbelow]
  ring

/-- **The interval of a double holds the points of decimal grids that round to it.** -/
theorem holds_iff {m : Nat} (hm : 0 < m) (e : Int) (k : Nat) (shift : Int) :
    (of m e).holds k shift = true ↔ Rounds m e (k * 10 ^ shift) := by
  have hclosed : (of m e).closed = (m % 2 == 0) := rfl
  rw [holds_iff_ends (den_pos m e), lower_div_den hm, upper_div_den, hclosed]
  rcases Nat.mod_two_eq_zero_or_one m with heven | hodd
  · rw [if_pos (by simpa using heven)]
    exact ⟨fun h => ⟨h.1, h.2, by omega, by omega⟩, fun h => ⟨h.lower, h.upper⟩⟩
  · rw [if_neg (by simp [hodd])]
    exact ⟨fun h => ⟨h.1.le, h.2.le, fun _ => h.1, fun _ => h.2⟩, fun h => ⟨h.lower_lt hodd, h.lt_upper hodd⟩⟩

end Interval

end Shelfmark.Decimal
