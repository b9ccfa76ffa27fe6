import Shelfmark.Proofs.Time.Order

/-!
# The order of times with different offsets

Times with one local time differ in their offsets alone, and so do their texts.  The texts of offsets come in the order
of their magnitudes, those of offsets that are not negative before the others (`offsetText_lt`), while the instants
come in the opposite order of the offsets.  So the order of texts is not always that of instants, and it is known where
it is not (`Misplaced`, `isoText_lt_iff_misplaced`); times with one offset are in order (`not_misplaced_of_offset_eq`).
-/

namespace Shelfmark.Timestamp

variable {s t : Timestamp} {m n : Nat} {o o' : Int}

/-! ## Texts of offsets -/

/-- The seconds of an offset: nothing if they and their fraction are zero. -/
def secondsText (s f : Nat) : List Char := if s == 0 && f == 0 then [] else ':' :: padded 2 s ++ fractionText f

/-- What is written behind the sign of an offset. -/
def magnitudeText (n : Nat) : List Char :=
  padded 2 (clockOf n).hours ++ ':' :: (padded 2 (clockOf n).minutes ++
    secondsText (clockOf n).seconds (clockOf n).micros)

theorem offsetText_eq (o : Int) : offsetText o = (if o < 0 then '-' else '+') :: magnitudeText o.natAbs := by
  simp only [offsetText, magnitudeText, secondsText, clockOf, List.append_assoc, List.cons_append]
  rfl

theorem secondsText_lt {s s' f f' : Nat} (h : s < s' ∨ s = s' ∧ f < f') (hs : s' < 10 ^ 2) (hf : f' < 10 ^ 6) :
    secondsText s f < secondsText s' f' := by
  have hpos : (s' == 0 && f' == 0) = false := by
    rw [Bool.and_eq_false_iff, beq_eq_false_iff_ne, beq_eq_false_iff_ne]
    omega
  unfold secondsText
  rw [hpos, if_neg Bool.false_ne_true]
  split
  · exact List.nil_lt_cons ':' _
  · simp only [List.cons_append, padded_eq_padDigits]
    refine List.cons_lt_cons_self.mpr ?_
    rcases h with h | ⟨rfl, h⟩
    · exact Decimal.padDigits_append_lt (by decide) h hs _ _
    · refine List.append_left_lt ?_
      simpa using fractionText_append_lt h hf (List.nil_lt_cons '.') []

/-- The text of a lesser magnitude comes first. -/
theorem magnitudeText_lt (h : m < n) (hn : n < microsPerDay) : magnitudeText m < magnitudeText n := by
  have hh := hours_clockOf_lt hn
  have hm : (clockOf n).minutes < 60 := Nat.mod_lt _ (by decide)
  have hs : (clockOf n).seconds < 60 := Nat.mod_lt _ (by decide)
  have hf : (clockOf n).micros < 10 ^ 6 := Nat.mod_lt _ (by decide)
  simp only [magnitudeText, padded_eq_padDigits]
  rcases clockOf_lt h with h | ⟨heq, h | ⟨heq', h⟩⟩
  · exact Decimal.padDigits_append_lt (by decide) h (by omega) _ _
  · rw [heq]
    refine List.append_left_lt (List.cons_lt_cons_self.mpr ?_)
    exact Decimal.padDigits_append_lt (by decide) h (by omega) _ _
  · rw [heq, heq']
    refine List.append_left_lt (List.cons_lt_cons_self.mpr (List.append_left_lt ?_))
    exact secondsText_lt h (by omega) hf

/-- **The texts of offsets come in the order of their magnitudes, and those of negative offsets last.** -/
theorem offsetText_lt (hbound : o'.natAbs < microsPerDay) (h : 0 ≤ o ∧ (o' < 0 ∨ o < o') ∨ o < 0 ∧ o' < o) :
    offsetText o < offsetText o' := by
  rw [offsetText_eq, offsetText_eq]
  rcases h with ⟨hpos, hneg | hlt⟩ | ⟨hneg, hlt⟩
  · rw [if_neg (by omega), if_pos hneg]
    exact List.cons_lt_cons_iff.mpr (.inl (by decide))
  · rw [if_neg (by omega), if_neg (by omega)]
    exact List.cons_lt_cons_self.mpr (magnitudeText_lt (by omega) hbound)
  · rw [if_pos hneg, if_pos (by omega)]
    exact List.cons_lt_cons_self.mpr (magnitudeText_lt (by omega) hbound)

/-! ## Texts and instants -/

theorem natAbs_offset_lt (t : Timestamp) : t.offset.natAbs < microsPerDay := by
  have hvalid := t.offset_valid
  simp only [isOffset, Bool.or_eq_true, Bool.and_eq_true, beq_iff_eq, decide_eq_true_eq] at hvalid
  rcases hvalid with hzero | hvalid
  · rw [hzero]
    decide
  · exact hvalid.2

/-- Times with one local time come in the order of the texts of their offsets. -/
theorem isoText_lt_of_localMicros_eq (h : s.localMicros = t.localMicros)
    (ho : 0 ≤ s.offset ∧ (t.offset < 0 ∨ s.offset < t.offset) ∨ s.offset < 0 ∧ t.offset < s.offset) :
    s.isoText < t.isoText := by
  obtain ⟨hdate, hclock⟩ := date_clock_of_localMicros_eq h
  rw [String.lt_iff_toList_lt]
  simp only [isoText, String.toList_ofList, isoChars_eq, hdate, hclock]
  refine List.append_left_lt (List.cons_lt_cons_self.mpr (List.append_left_lt ?_))
  exact offsetText_lt t.natAbs_offset_lt ho

theorem isoText_injective (h : s.isoText = t.isoText) : s = t := by
  have hread := parseIso?_isoText s
  rw [h, parseIso?_isoText] at hread
  exact (Option.some.inj hread).symm

/-- A later time that is written with the earlier local time, or with the same one and an offset that is not
negative. -/
def Misplaced (late early : Timestamp) : Prop :=
  early.instant < late.instant ∧
    (late.localMicros < early.localMicros ∨ late.localMicros = early.localMicros ∧ 0 ≤ late.offset)

instance (late early : Timestamp) : Decidable (Misplaced late early) := inferInstanceAs (Decidable (_ ∧ _))

/-- **The text of the later one of two times comes first exactly if it is misplaced.** -/
theorem isoText_lt_iff_misplaced {late early : Timestamp} (h : early.instant < late.instant) :
    late.isoText < early.isoText ↔ Misplaced late early := by
  have hinstant := h
  simp only [instant] at hinstant
  rcases lt_trichotomy late.localMicros early.localMicros with hlocal | hlocal | hlocal
  · exact iff_of_true (isoText_lt_of_localMicros_lt hlocal) ⟨h, .inl hlocal⟩
  · by_cases hpos : 0 ≤ late.offset
    · refine iff_of_true (isoText_lt_of_localMicros_eq hlocal (.inl ⟨hpos, .inr ?_⟩)) ⟨h, .inr ⟨hlocal, hpos⟩⟩
      omega
    · -- a negative offset comes behind all greater ones
      have htext : early.isoText < late.isoText := by
        refine isoText_lt_of_localMicros_eq hlocal.symm ?_
        omega
      refine iff_of_false (lt_asymm htext) ?_
      rintro ⟨_, hlate | ⟨_, hlate⟩⟩
      · omega
      · exact hpos hlate
  · refine iff_of_false (lt_asymm (isoText_lt_of_localMicros_lt hlocal)) ?_
    rintro ⟨_, hlate | ⟨hlate, _⟩⟩
    · omega
    · omega

/-- Times with one offset are not misplaced. -/
theorem not_misplaced_of_offset_eq (h : s.offset = t.offset) : ¬Misplaced s t := by
  rintro ⟨hinstant, hlocal⟩
  simp only [instant] at hinstant
  omega

end Shelfmark.Timestamp
