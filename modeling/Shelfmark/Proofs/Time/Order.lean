import Mathlib.Data.String.Basic
import Shelfmark.Proofs.Time.Reading

/-!
# The order of times and of their texts

The numbers of dates grow with year, month and day (`Date.dayNumber_lt_of_before`), and so do the texts of dates.  Times
therefore come in the same order as their texts as long as their local times differ
(`Timestamp.isoText_lt_of_localMicros_lt`), although only some texts have a fraction of a second: what stands in its
place, the sign of the offset, comes before the point.
-/

namespace Shelfmark

/-! ## Dates -/

namespace Date

variable {y y' m m' : Nat} {a b : Date}

theorem daysBeforeMonth_succ (y : Nat) (h : 1 ≤ m) :
    daysBeforeMonth y (m + 1) = daysBeforeMonth y m + daysInMonth y m := by
  obtain ⟨k, rfl⟩ := Nat.exists_eq_add_of_le' h
  simp only [daysBeforeMonth, Nat.add_sub_cancel, List.range_succ, List.foldl_append, List.foldl_cons, List.foldl_nil]

/-- A month ends before the months behind it begin. -/
theorem daysBeforeMonth_add_le (y : Nat) (hm : 1 ≤ m) (h : m < m') :
    daysBeforeMonth y m + daysInMonth y m ≤ daysBeforeMonth y m' := by
  induction h with
  | refl => rw [daysBeforeMonth_succ y hm]
  | step hlt ih =>
    rw [daysBeforeMonth_succ y (Nat.le_trans (Nat.le_add_left 1 m) hlt)]
    exact Nat.le_add_right_of_le ih

/-- A leap year by its divisors. -/
theorem isLeapYear_eq (y : Nat) : isLeapYear y = decide (4 ∣ y ∧ (¬100 ∣ y ∨ 400 ∣ y)) := by
  simp only [isLeapYear, Nat.dvd_iff_mod_eq_zero, Bool.decide_and, Bool.decide_or, decide_not]
  rfl

theorem daysBeforeMonth_end (y : Nat) : daysBeforeMonth y 13 = 365 + if isLeapYear y then 1 else 0 := by
  have hmonths : List.range (13 - 1) = [0, 1, 2, 3, 4, 5, 6, 7, 8, 9, 10, 11] := rfl
  rw [daysBeforeMonth, hmonths]
  simp only [List.foldl_cons, List.foldl_nil, daysInMonth]
  split <;> rfl

theorem daysBeforeYear_succ (h : 1 ≤ y) : daysBeforeYear (y + 1) = daysBeforeYear y + daysBeforeMonth y 13 := by
  obtain ⟨k, rfl⟩ := Nat.exists_eq_add_of_le' h
  have h400 : 400 ∣ k + 1 → 100 ∣ k + 1 := Nat.dvd_trans (by decide)
  have h100 : 100 ∣ k + 1 → 4 ∣ k + 1 := Nat.dvd_trans (by decide)
  have hle : k / 100 ≤ k / 4 := Nat.div_le_div_left (by decide) (by decide)
  simp only [daysBeforeMonth_end, daysBeforeYear, isLeapYear_eq, Nat.add_sub_cancel, Nat.succ_div, decide_eq_true_eq]
  -- the quotients count the leap days so far; a further one is counted as the divisors of the year say
  generalize k / 4 = q4 at *
  generalize k / 100 = q100 at *
  generalize k / 400 = q400 at *
  by_cases hcentury : 100 ∣ k + 1
  · by_cases hlong : 400 ∣ k + 1
    · simp [hcentury, hlong, h100 hcentury]
      omega
    · simp [hcentury, hlong, h100 hcentury]
      omega
  · have hlong : ¬400 ∣ k + 1 := fun h => hcentury (h400 h)
    by_cases hfour : 4 ∣ k + 1
    · simp [hcentury, hlong, hfour]
      omega
    · simp [hcentury, hlong, hfour]
      omega

/-- A year ends before the years behind it begin. -/
theorem daysBeforeYear_add_le (hy : 1 ≤ y) (h : y < y') :
    daysBeforeYear y + daysBeforeMonth y 13 ≤ daysBeforeYear y' := by
  induction h with
  | refl => rw [daysBeforeYear_succ hy]
  | step hlt ih =>
    rw [daysBeforeYear_succ (Nat.le_trans (Nat.le_add_left 1 y) hlt)]
    exact Nat.le_add_right_of_le ih

/-- The date is earlier: by its year, or in one year by its month, or in one month by its day. -/
def Before (a b : Date) : Prop :=
  a.year < b.year ∨ a.year = b.year ∧ (a.month < b.month ∨ a.month = b.month ∧ a.day < b.day)

theorem bounds (d : Date) : ((((1 ≤ d.year ∧ d.year ≤ 9999) ∧ 1 ≤ d.month) ∧ d.month ≤ 12) ∧ 1 ≤ d.day) ∧
    d.day ≤ daysInMonth d.year d.month := by
  simpa only [isDate, Bool.and_eq_true, decide_eq_true_eq] using d.valid

theorem one_le_dayNumber (d : Date) : 1 ≤ d.dayNumber := Nat.le_trans d.bounds.1.2 (Nat.le_add_left _ _)

/-- **The numbers of dates grow from date to date.** -/
theorem dayNumber_lt_of_before (h : a.Before b) : a.dayNumber < b.dayNumber := by
  obtain ⟨⟨⟨⟨⟨hy, _⟩, hm⟩, hm'⟩, _⟩, hd⟩ := bounds a
  obtain ⟨⟨⟨⟨_, _⟩, _⟩, hpos⟩, _⟩ := bounds b
  simp only [dayNumber]
  rcases h with h | ⟨heq, h | ⟨heq', h⟩⟩
  · have hmonth := daysBeforeMonth_add_le a.year hm (by omega : a.month < 13)
    have hyear := daysBeforeYear_add_le hy h
    omega
  · have hmonth := daysBeforeMonth_add_le a.year hm h
    rw [← heq]
    omega
  · rw [← heq, ← heq']
    omega

theorem before_trichotomy (a b : Date) : a.Before b ∨ a = b ∨ b.Before a := by
  obtain ⟨y, m, d, _⟩ := a
  obtain ⟨y', m', d', _⟩ := b
  simp only [Before, Date.mk.injEq]
  omega

/-- Of two dates the one with the lesser number is earlier. -/
theorem before_of_dayNumber_lt (h : a.dayNumber < b.dayNumber) : a.Before b := by
  rcases before_trichotomy a b with hab | rfl | hab
  · exact hab
  · exact absurd h (Nat.lt_irrefl _)
  · exact absurd (dayNumber_lt_of_before hab) (Nat.lt_asymm h)

theorem dayNumber_injective (h : a.dayNumber = b.dayNumber) : a = b := by
  rcases before_trichotomy a b with hab | hab | hab
  · exact absurd h (Nat.ne_of_lt (dayNumber_lt_of_before hab))
  · exact hab
  · exact absurd h (Nat.ne_of_gt (dayNumber_lt_of_before hab))

end Date

/-! ## Texts -/

namespace Timestamp

variable {s t : Timestamp}

/-- The text of an earlier date comes first, whatever follows. -/
theorem dateText_append_lt {a b : Date} (h : a.Before b) (r r' : List Char) : dateText a ++ r < dateText b ++ r' := by
  simp only [dateText, List.append_assoc, List.cons_append, padded_eq_padDigits]
  rcases h with h | ⟨hyear, h | ⟨hmonth, h⟩⟩
  · exact Decimal.padDigits_append_lt (by decide) h (year_lt b) _ _
  · rw [hyear]
    refine List.append_left_lt (List.cons_lt_cons_self.mpr ?_)
    exact Decimal.padDigits_append_lt (by decide) h (month_lt b) _ _
  · rw [hyear, hmonth]
    refine List.append_left_lt (List.cons_lt_cons_self.mpr (List.append_left_lt (List.cons_lt_cons_self.mpr ?_)))
    exact Decimal.padDigits_append_lt (by decide) h (day_lt b) _ _

/-- An offset comes before a fraction. -/
theorem offsetText_lt_point (offset : Int) (r : List Char) : offsetText offset < '.' :: r := by
  simp only [offsetText]
  split
  · exact List.cons_lt_cons_iff.mpr (.inl (by decide))
  · exact List.cons_lt_cons_iff.mpr (.inl (by decide))

/-- The text of a lesser fraction comes first, if what follows it comes before a point. -/
theorem fractionText_append_lt {f g : Nat} (h : f < g) (hg : g < 10 ^ 6) {r : List Char} (hr : ∀ q, r < '.' :: q)
    (r' : List Char) : fractionText f ++ r < fractionText g ++ r' := by
  have hpos : (g == 0) = false := by rw [beq_eq_false_iff_ne]; omega
  by_cases hf : f = 0
  · subst hf
    simp only [fractionText, hpos, beq_self_eq_true, if_true, Bool.false_eq_true, if_false, List.nil_append]
    exact hr _
  · have hne : (f == 0) = false := by rwa [beq_eq_false_iff_ne]
    simp only [fractionText, hpos, hne, Bool.false_eq_true, if_false, List.cons_append, padded_eq_padDigits]
    exact List.cons_lt_cons_self.mpr (Decimal.padDigits_append_lt (by decide) h hg _ _)

/-- Of two numbers of microseconds the lesser one has the lesser hours, or the lesser minutes of one hour, and so on. -/
theorem clockOf_lt {c d : Nat} (h : c < d) : (clockOf c).hours < (clockOf d).hours ∨
    (clockOf c).hours = (clockOf d).hours ∧
      ((clockOf c).minutes < (clockOf d).minutes ∨ (clockOf c).minutes = (clockOf d).minutes ∧
        ((clockOf c).seconds < (clockOf d).seconds ∨ (clockOf c).seconds = (clockOf d).seconds ∧
          (clockOf c).micros < (clockOf d).micros)) := by
  simp only [clockOf, microsPerSecond]
  omega

/-- The text of an earlier time of day comes first, whatever offsets follow. -/
theorem clockText_append_lt {c d : Nat} (h : c < d) (hd : d < microsPerDay) (offset offset' : Int) :
    clockText c ++ offsetText offset < clockText d ++ offsetText offset' := by
  have hh := hours_clockOf_lt hd
  have hm : (clockOf d).minutes < 60 := Nat.mod_lt _ (by decide)
  have hs : (clockOf d).seconds < 60 := Nat.mod_lt _ (by decide)
  have hf : (clockOf d).micros < 10 ^ 6 := Nat.mod_lt _ (by decide)
  have htext : ∀ n, clockText n = padded 2 (clockOf n).hours ++ ':' :: (padded 2 (clockOf n).minutes ++
      ':' :: (padded 2 (clockOf n).seconds ++ fractionText (clockOf n).micros)) := fun n => by
    simp only [clockText, clockOf, List.append_assoc, List.cons_append]
  simp only [htext, List.append_assoc, List.cons_append, padded_eq_padDigits]
  rcases clockOf_lt h with h | ⟨heq, h | ⟨heq', h | ⟨heq'', h⟩⟩⟩
  · exact Decimal.padDigits_append_lt (by decide) h (by omega) _ _
  · rw [heq]
    refine List.append_left_lt (List.cons_lt_cons_self.mpr ?_)
    exact Decimal.padDigits_append_lt (by decide) h (by omega) _ _
  · rw [heq, heq']
    refine List.append_left_lt (List.cons_lt_cons_self.mpr (List.append_left_lt (List.cons_lt_cons_self.mpr ?_)))
    exact Decimal.padDigits_append_lt (by decide) h (by omega) _ _
  · rw [heq, heq', heq'']
    refine List.append_left_lt (List.cons_lt_cons_self.mpr (List.append_left_lt (List.cons_lt_cons_self.mpr
      (List.append_left_lt ?_))))
    exact fractionText_append_lt h hf (offsetText_lt_point offset) _

/-- Times with one local time have one date and one time of day. -/
theorem date_clock_of_localMicros_eq (h : s.localMicros = t.localMicros) : s.date = t.date ∧ s.clock = t.clock := by
  have hclock := s.clock_lt
  have hclock' := t.clock_lt
  have hpos := s.date.one_le_dayNumber
  have hpos' := t.date.one_le_dayNumber
  simp only [localMicros, microsPerDay] at h hclock hclock'
  exact ⟨Date.dayNumber_injective (by omega), by omega⟩

/-- **Of two times the one with the earlier local time comes first as a text**, whatever their offsets are. -/
theorem isoText_lt_of_localMicros_lt (h : s.localMicros < t.localMicros) : s.isoText < t.isoText := by
  have hdays : s.date.dayNumber < t.date.dayNumber ∨
      s.date.dayNumber = t.date.dayNumber ∧ s.clock < t.clock := by
    have hclock := s.clock_lt
    have hclock' := t.clock_lt
    have hpos := s.date.one_le_dayNumber
    have hpos' := t.date.one_le_dayNumber
    simp only [localMicros, microsPerDay] at h hclock hclock'
    omega
  rw [String.lt_iff_toList_lt]
  simp only [isoText, String.toList_ofList, isoChars_eq]
  rcases hdays with h | ⟨heq, h⟩
  · exact dateText_append_lt (Date.before_of_dayNumber_lt h) _ _
  · rw [Date.dayNumber_injective heq]
    exact List.append_left_lt (List.cons_lt_cons_self.mpr (clockText_append_lt h t.clock_lt _ _))

end Timestamp

end Shelfmark
