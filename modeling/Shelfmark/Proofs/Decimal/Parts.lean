import Shelfmark.Proofs.Decimal.Rounding

/-!
# The parts of a double

The bits of a double are its sign, its biased exponent and its fraction, and these determine it.  So a finite double is
determined by its parts (`parts?_injective`), whose mantissa and exponent make a double (`isDouble_of_parts?`); beside
the finite doubles there are the two infinities (`isInf_iff`) and one that is no number (`eq_of_parts?_none`).
-/

namespace Shelfmark.Decimal

variable {x y : Float} {p : Parts}

theorem eq_of_toBits : x.toBits = y.toBits → x = y := by
  obtain ⟨⟨bits, _⟩⟩ := x
  obtain ⟨⟨bits', _⟩⟩ := y
  rintro (rfl : bits = bits')
  rfl

theorem toBits_lt (x : Float) : x.toBits.toNat < 2 ^ 64 := x.toBits.toNat_lt

/-- The parts of a finite double, read off its bits. -/
theorem parts?_eq_some (h : parts? x = some p) : x.toBits.toNat / 2 ^ 52 % 2048 ≠ 2047 ∧
    p.negative = (x.toBits.toNat / 2 ^ 63 == 1) ∧
    (x.toBits.toNat / 2 ^ 52 % 2048 = 0 ∧ p.mantissa = x.toBits.toNat % 2 ^ 52 ∧ p.exponent = -1074 ∨
      x.toBits.toNat / 2 ^ 52 % 2048 ≠ 0 ∧ p.mantissa = x.toBits.toNat % 2 ^ 52 + 2 ^ 52 ∧
        p.exponent = (x.toBits.toNat / 2 ^ 52 % 2048 : Nat) - 1075) := by
  simp only [parts?, beq_iff_eq, Nat.pow_eq] at h
  split at h
  · cases h
  · rename_i hfinite
    split at h
    · rename_i hzero
      cases h
      exact ⟨hfinite, rfl, Or.inl ⟨hzero, rfl, rfl⟩⟩
    · rename_i hnonzero
      cases h
      exact ⟨hfinite, rfl, Or.inr ⟨hnonzero, rfl, rfl⟩⟩

/-- **A finite double is determined by its parts.** -/
theorem parts?_injective (h : parts? x = some p) (h' : parts? y = some p) : x = y := by
  obtain ⟨_, hsign, hx⟩ := parts?_eq_some h
  obtain ⟨_, hsign', hy⟩ := parts?_eq_some h'
  have hlt := toBits_lt x
  have hlt' := toBits_lt y
  have hnegative : x.toBits.toNat / 2 ^ 63 = y.toBits.toNat / 2 ^ 63 := by
    rw [hsign, Bool.eq_iff_iff, beq_iff_eq, beq_iff_eq] at hsign'
    omega
  refine eq_of_toBits (UInt64.toNat_inj.mp ?_)
  generalize x.toBits.toNat = n at *
  generalize y.toBits.toNat = n' at *
  rcases hx with ⟨_, _, _⟩ | ⟨_, _, _⟩ <;> rcases hy with ⟨_, _, _⟩ | ⟨_, _, _⟩ <;> omega

/-- The mantissa and the exponent of a finite double other than zero make a double. -/
theorem isDouble_of_parts? (h : parts? x = some p) (hpos : 0 < p.mantissa) : IsDouble p.mantissa p.exponent := by
  obtain ⟨hfinite, _, hx⟩ := parts?_eq_some h
  generalize x.toBits.toNat = n at *
  rcases hx with ⟨_, _, _⟩ | ⟨_, _, _⟩
  · exact ⟨hpos, by omega, by omega, by omega, Or.inr ‹_›⟩
  · exact ⟨hpos, by omega, by omega, by omega, Or.inl (by omega)⟩

/-! ## Doubles that are not finite -/

section NotFinite

open Float.Model (UnpackedFloat)

theorem toNat_unpackExponent (b : BitVec 64) :
    (@UnpackedFloat.unpackExponent .binary64 b).toNat = b.toNat / 2 ^ 52 % 2048 := by
  simp [UnpackedFloat.unpackExponent, BitVec.extractLsb, Nat.shiftRight_eq_div_pow]

theorem toNat_unpackMantissa (b : BitVec 64) :
    (@UnpackedFloat.unpackMantissa .binary64 b).toNat = b.toNat % 2 ^ 52 := by
  simp [UnpackedFloat.unpackMantissa, BitVec.extractLsb]

/-- **A double that is not finite is infinite or the one that is no number.** -/
theorem eq_of_parts?_none (h : parts? x = none) : x = Float.ofBits 0x7ff8000000000000 ∨
    x = Float.ofBits 0x7ff0000000000000 ∨ x = Float.ofBits 0xfff0000000000000 := by
  have hlt := toBits_lt x
  have hexponent : x.toBits.toNat / 2 ^ 52 % 2048 = 2047 := by
    simp only [parts?, beq_iff_eq, Nat.pow_eq] at h
    by_contra hne
    rw [if_neg hne] at h
    split at h <;> cases h
  by_cases hfraction : x.toBits.toNat % 2 ^ 52 = 0
  · -- the sign is left
    right
    have hsign : x.toBits.toNat = 0x7ff0000000000000 ∨ x.toBits.toNat = 0xfff0000000000000 := by omega
    rcases hsign with hbits | hbits
    · exact Or.inl (eq_of_toBits (UInt64.toNat_inj.mp hbits))
    · exact Or.inr (eq_of_toBits (UInt64.toNat_inj.mp hbits))
  · left
    obtain ⟨⟨bits, hvalid⟩⟩ := x
    have hnan := hvalid.eq_packedNaN (BitVec.eq_of_toNat_eq ?_) fun hzero => hfraction ?_
    · exact eq_of_toBits (UInt64.toBitVec_inj.mp hnan)
    · exact (toNat_unpackExponent bits.toBitVec).trans hexponent
    · exact (toNat_unpackMantissa bits.toBitVec).symm.trans (congrArg BitVec.toNat hzero)

/-- A finite double is not infinite. -/
theorem isInf_of_parts? {p : Parts} (h : parts? x = some p) : x.isInf = false := by
  have hfinite := (parts?_eq_some h).1
  let bits := x.toModel.toBits.toBitVec
  have hexponent : @UnpackedFloat.unpackExponent .binary64 bits ≠ -1#11 := by
    intro hones
    exact hfinite ((toNat_unpackExponent _).symm.trans (congrArg BitVec.toNat hones))
  have hunpacked : UnpackedFloat.unpack .binary64 bits = _ := if_neg hexponent
  show (UnpackedFloat.unpack .binary64 bits).isInf = false
  rw [hunpacked]
  by_cases hzero : @UnpackedFloat.unpackExponent .binary64 bits = 0#11
  · rw [if_pos hzero]
    by_cases hmantissa : @UnpackedFloat.unpackMantissa .binary64 bits = 0#52
    · rw [dif_pos hmantissa]
      rfl
    · rw [dif_neg hmantissa]
      rfl
  · rw [if_neg hzero]
    rfl

/-- **The infinities are the numbers without a whole part.** -/
theorem isInf_iff : x.isInf = true ↔ truncate? x = none ∧ x.isNaN = false := by
  rw [truncate?, Option.map_eq_none_iff]
  cases hparts : parts? x with
  | some p => simp [isInf_of_parts? hparts]
  | none =>
    rcases eq_of_parts?_none hparts with rfl | rfl | rfl <;> decide

end NotFinite

end Shelfmark.Decimal
