import Mathlib.Algebra.Group.Nat.Defs
import Shelfmark.Decimal.Text

/-!
# Digits of fixed width

A number that fits into a width is written with exactly so many digits (`length_padDigits`), and these spell the number
(`ofDigitChars_padDigits`).  Numbers of one width come in the same order as texts (`padDigits_append_lt`).
-/

namespace Shelfmark.Decimal

variable {width m n : Nat} {c : Char}

theorem isDigit_of_mem_padDigits (h : c ∈ padDigits width n) : c.isDigit = true := by
  rcases List.mem_append.mp h with h | h
  · rw [List.eq_of_mem_replicate h]
    rfl
  · exact Nat.isDigit_of_mem_toDigits (by decide) (by decide) h

/-- **A number that fits into a width takes exactly so many digits.** -/
theorem length_padDigits (hw : 0 < width) (hn : n < 10 ^ width) : (padDigits width n).length = width := by
  have hlength : (Nat.toDigits 10 n).length ≤ width := (Nat.length_toDigits_le_iff (by decide) hw).mpr hn
  rw [padDigits, List.length_append, List.length_replicate]
  omega

/-- **The digits spell the number.** -/
theorem ofDigitChars_padDigits : Nat.ofDigitChars 10 (padDigits width n) 0 = n := by
  rw [padDigits, Nat.ofDigitChars_append, Nat.ofDigitChars_replicate_zero, Nat.mul_zero, Nat.ofDigitChars_ten_toDigits]

/-! ## Order -/

theorem digit_le (h : c.isDigit = true) : c.toNat - '0'.toNat ≤ 9 := by
  simp only [Char.isDigit, Bool.and_eq_true, decide_eq_true_eq] at h
  have hle : c.toNat ≤ 57 := h.2
  show c.toNat - 48 ≤ 9
  omega

/-- The value of digits, by their first one. -/
theorem ofDigitChars_cons_eq (c : Char) (ds : List Char) :
    Nat.ofDigitChars 10 (c :: ds) 0 = 10 ^ ds.length * (c.toNat - '0'.toNat) + Nat.ofDigitChars 10 ds 0 := by
  rw [Nat.ofDigitChars_cons, Nat.ofDigitChars_eq_ofDigitChars_zero, Nat.mul_zero, Nat.zero_add]

/-- Digits spell less than the power of ten with as many zeros. -/
theorem ofDigitChars_lt : ∀ {ds : List Char}, (∀ c ∈ ds, c.isDigit = true) →
    Nat.ofDigitChars 10 ds 0 < 10 ^ ds.length
  | [], _ => by decide
  | c :: ds, h => by
    have hc := Nat.mul_le_mul_left (10 ^ ds.length) (digit_le (h c List.mem_cons_self))
    have hds := ofDigitChars_lt fun d hd => h d (List.mem_cons_of_mem c hd)
    rw [ofDigitChars_cons_eq, List.length_cons, Nat.pow_succ]
    omega

/-- Of as many digits, those that spell the lesser number come first as a text, whatever follows. -/
theorem append_lt_of_ofDigitChars_lt (r r' : List Char) : ∀ {ds es : List Char}, ds.length = es.length →
    (∀ c ∈ ds, c.isDigit = true) → (∀ c ∈ es, c.isDigit = true) →
    Nat.ofDigitChars 10 ds 0 < Nat.ofDigitChars 10 es 0 → ds ++ r < es ++ r'
  | [], [], _, _, _, h => absurd h (Nat.lt_irrefl _)
  | c :: ds, e :: es, hlength, hds, hes, h => by
    have hlength' : ds.length = es.length := Nat.succ.inj hlength
    have hrest := ofDigitChars_lt fun d hd => hds d (List.mem_cons_of_mem c hd)
    have hrest' := ofDigitChars_lt fun d hd => hes d (List.mem_cons_of_mem e hd)
    rw [ofDigitChars_cons_eq, ofDigitChars_cons_eq, hlength'] at h
    rw [hlength'] at hrest
    have hc := hds c List.mem_cons_self
    have he := hes e List.mem_cons_self
    rw [List.cons_append, List.cons_append, List.cons_lt_cons_iff]
    rcases Nat.lt_trichotomy c.toNat e.toNat with hce | hce | hce
    · exact .inl hce
    · obtain rfl : c = e := Char.toNat_inj.mp hce
      exact .inr ⟨rfl, append_lt_of_ofDigitChars_lt r r' hlength' (fun d hd => hds d (List.mem_cons_of_mem c hd))
        (fun d hd => hes d (List.mem_cons_of_mem c hd)) (Nat.lt_of_add_lt_add_left h)⟩
    · have hle : e.toNat - '0'.toNat + 1 ≤ c.toNat - '0'.toNat := by
        simp only [Char.isDigit, Bool.and_eq_true, decide_eq_true_eq] at he
        have h48 : 48 ≤ e.toNat := he.1
        show e.toNat - 48 + 1 ≤ c.toNat - 48
        omega
      have hmul := Nat.mul_le_mul_left (10 ^ es.length) hle
      rw [Nat.mul_add, Nat.mul_one] at hmul
      omega

/-- **Of numbers of a fixed width the lesser comes first as a text, whatever follows.** -/
theorem padDigits_append_lt (hw : 0 < width) (hmn : m < n) (hn : n < 10 ^ width) (r r' : List Char) :
    padDigits width m ++ r < padDigits width n ++ r' := by
  refine append_lt_of_ofDigitChars_lt r r' ?_ (fun _ => isDigit_of_mem_padDigits)
    (fun _ => isDigit_of_mem_padDigits) ?_
  · rw [length_padDigits hw (by omega), length_padDigits hw hn]
  · rwa [ofDigitChars_padDigits, ofDigitChars_padDigits]

end Shelfmark.Decimal
