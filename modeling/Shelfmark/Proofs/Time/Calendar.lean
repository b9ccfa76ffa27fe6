import Shelfmark.Proofs.Fallible
import Shelfmark.Proofs.Time.Order
import Shelfmark.Time.Span

/-!
# Day numbers and their dates

Every number from 1 to that of the last day of the calendar is the number of a date, and that date is found
(`Date.exists_ofDayNumber?`): the year is the one that begins before the day and ends after it (`Date.yearOf_bounds`),
and the month is found by going through the months of that year (`Date.monthDay_spec`).  So a time can be moved back as
far as the calendar reaches, with the same offset (`Timestamp.exists_shift?`, `Timestamp.exists_daysBefore_iff`), and
the month and the year of a time begin at a midnight that is not later (`Timestamp.exists_startOfMonth`,
`Timestamp.exists_startOfYear`).
-/

namespace Shelfmark

/-! ## Dates -/

namespace Date

variable {d : Date} {n y : Nat}

/-- A year is a number of years of each cycle; the days before it are the days of these years. -/
theorem daysBeforeYear_cycles (n400 : Nat) {n100 n4 n1 : Nat} (h100 : n100 ≤ 3) (h4 : n4 ≤ 24) (h1 : n1 ≤ 3) :
    daysBeforeYear (n400 * 400 + n100 * 100 + n4 * 4 + n1 + 1) =
      n400 * 146097 + n100 * 36524 + n4 * 1461 + n1 * 365 := by
  have hfour : (n400 * 400 + n100 * 100 + n4 * 4 + n1) / 4 = n400 * 100 + n100 * 25 + n4 := by omega
  have hcentury : (n400 * 400 + n100 * 100 + n4 * 4 + n1) / 100 = n400 * 4 + n100 := by omega
  have hlong : (n400 * 400 + n100 * 100 + n4 * 4 + n1) / 400 = n400 := by omega
  simp only [daysBeforeYear, Nat.add_sub_cancel, hfour, hcentury, hlong]
  omega

/-- The last day of a long year is a leap day. -/
theorem isLeapYear_of_last (n400 : Nat) {n100 n4 : Nat} (h4 : n4 ≤ 24) (h : n4 = 24 → n100 = 3) :
    isLeapYear (n400 * 400 + n100 * 100 + n4 * 4 + 3 + 1) = true := by
  rw [isLeapYear_eq, decide_eq_true_eq]
  by_cases hlast : n4 = 24
  · have hthree := h hlast
    omega
  · omega

/-- The year of a day is counted in cycles of 400, 100 and 4 years and single years; the day lies less than 365 days
behind them, or is the leap day at the end of a long year. -/
theorem exists_cycles (n : Nat) : ∃ n400 n100 n4 n1 r, yearOf n = n400 * 400 + n100 * 100 + n4 * 4 + n1 + 1 ∧
    n = n400 * 146097 + n100 * 36524 + n4 * 1461 + n1 * 365 + r ∧ n100 ≤ 3 ∧ n4 ≤ 24 ∧ n1 ≤ 3 ∧
    (r < 365 ∨ r = 365 ∧ n1 = 3 ∧ (n4 = 24 → n100 = 3)) := by
  obtain ⟨r100, h100⟩ : ∃ r, r = n % 146097 - min 3 (n % 146097 / 36524) * 36524 := ⟨_, rfl⟩
  obtain ⟨r, hr⟩ : ∃ r, r = r100 % 1461 - min 3 (r100 % 1461 / 365) * 365 := ⟨_, rfl⟩
  refine ⟨n / 146097, min 3 (n % 146097 / 36524), r100 / 1461, min 3 (r100 % 1461 / 365), r, ?_, ?_, ?_⟩
  · simp only [yearOf, h100]
  · omega
  · omega

/-- **The year of a day begins before the day and ends after it.** -/
theorem yearOf_bounds (n : Nat) :
    1 ≤ yearOf n ∧ daysBeforeYear (yearOf n) ≤ n ∧ n < daysBeforeYear (yearOf n) + daysBeforeMonth (yearOf n) 13 := by
  obtain ⟨n400, n100, n4, n1, r, hyear, hn, h100, h4, h1, hr⟩ := exists_cycles n
  rw [hyear, daysBeforeYear_cycles n400 h100 h4 h1, daysBeforeMonth_end, hn]
  refine ⟨Nat.le_add_left 1 _, Nat.le_add_right _ _, Nat.add_lt_add_left ?_ _⟩
  rcases hr with hr | ⟨rfl, rfl, hlast⟩
  · exact Nat.lt_add_right _ hr
  · rw [if_pos (isLeapYear_of_last n400 h4 hlast)]
    exact Nat.lt_succ_self 365

/-- **The month and the day of the month of a day of the year** are those of a date of the year. -/
theorem monthDay_spec (y : Nat) : ∀ fuel m r : Nat, 1 ≤ m → m + fuel = 12 →
    daysBeforeMonth y m + r < daysBeforeMonth y 13 →
      (m ≤ (monthDay y fuel m r).1 ∧ (monthDay y fuel m r).1 ≤ 12) ∧
        (1 ≤ (monthDay y fuel m r).2 ∧ (monthDay y fuel m r).2 ≤ daysInMonth y (monthDay y fuel m r).1) ∧
        daysBeforeMonth y (monthDay y fuel m r).1 + (monthDay y fuel m r).2 = daysBeforeMonth y m + r + 1
  | 0, m, r, h1, hm, hr => by
    have hend := daysBeforeMonth_succ y h1
    rw [show m + 1 = 13 by omega] at hend
    simp only [monthDay]
    omega
  | fuel + 1, m, r, h1, hm, hr => by
    simp only [monthDay]
    split
    · rename_i hday
      exact ⟨⟨Nat.le_refl m, by omega⟩, ⟨Nat.le_add_left 1 r, hday⟩, rfl⟩
    · rename_i hnext
      have hend := daysBeforeMonth_succ y h1
      obtain ⟨hmonth, hday, hsum⟩ :=
        monthDay_spec y fuel (m + 1) (r - daysInMonth y m) (by omega) (by omega) (by omega)
      exact ⟨⟨by omega, hmonth.2⟩, hday, by omega⟩

/-- No date has a greater number than the last day of the calendar. -/
theorem dayNumber_le_last (d : Date) : d.dayNumber ≤ lastDayNumber := by
  have hlast : (⟨9999, 12, 31, by decide⟩ : Date).dayNumber = lastDayNumber := by decide +kernel
  rw [← hlast]
  rcases before_trichotomy d ⟨9999, 12, 31, by decide⟩ with h | h | h
  · exact Nat.le_of_lt (dayNumber_lt_of_before h)
  · exact h ▸ Nat.le_refl _
  · obtain ⟨⟨⟨⟨⟨_, hy⟩, _⟩, hm⟩, _⟩, hd⟩ := bounds d
    have hd' := Nat.le_trans hd (Timestamp.daysInMonth_le _ _)
    simp only [Before] at h
    omega

/-- The month and the day that are found for a number have this number in the year that is found for it. -/
theorem monthDay_yearOf (h : 1 ≤ n) {md : Nat × Nat}
    (hmd : md = monthDay (yearOf (n - 1)) 11 1 (n - 1 - daysBeforeYear (yearOf (n - 1)))) :
    (1 ≤ md.1 ∧ md.1 ≤ 12) ∧ (1 ≤ md.2 ∧ md.2 ≤ daysInMonth (yearOf (n - 1)) md.1) ∧
      daysBeforeYear (yearOf (n - 1)) + daysBeforeMonth (yearOf (n - 1)) md.1 + md.2 = n := by
  obtain ⟨_, hbegin, hend⟩ := yearOf_bounds (n - 1)
  have hzero : daysBeforeMonth (yearOf (n - 1)) 1 = 0 := rfl
  obtain ⟨hmonth, hday, hsum⟩ := monthDay_spec (yearOf (n - 1)) 11 1 (n - 1 - daysBeforeYear (yearOf (n - 1)))
    (by decide) rfl (by omega)
  rw [← hmd] at hmonth hday hsum
  exact ⟨hmonth, hday, by omega⟩

/-- The date that is found for a number has this number. -/
theorem dayNumber_of_ofDayNumber? (h : ofDayNumber? n = some d) : d.dayNumber = n := by
  unfold ofDayNumber? at h
  split at h
  · cases h
  · rename_i hne
    obtain ⟨_, _, hsum⟩ := monthDay_yearOf (Nat.one_le_iff_ne_zero.mpr (by simpa using hne)) rfl
    simp only [of?] at h
    split at h
    · cases h
      exact hsum
    · cases h

/-- **Every number up to that of the last day is the number of a date, and the date is found.** -/
theorem exists_ofDayNumber? (h : 1 ≤ n) (hlast : n ≤ lastDayNumber) : ∃ d, ofDayNumber? n = some d := by
  obtain ⟨hpos, hbegin, _⟩ := yearOf_bounds (n - 1)
  have hyear : yearOf (n - 1) ≤ 9999 := by
    by_contra hlate
    have hle := daysBeforeYear_add_le (y := 9999) (by decide) (Nat.lt_of_not_le hlate)
    have hdays : daysBeforeYear 9999 + daysBeforeMonth 9999 13 = lastDayNumber := by decide +kernel
    omega
  obtain ⟨hmonth, hday, _⟩ := monthDay_yearOf h rfl
  have hne : ¬(n == 0) = true := by simpa using Nat.ne_of_gt h
  rw [ofDayNumber?, if_neg hne]
  refine ⟨⟨_, _, _, ?_⟩, dif_pos ?_⟩ <;>
  · simp only [isDate, Bool.and_eq_true, decide_eq_true_eq]
    exact ⟨⟨⟨⟨⟨hpos, hyear⟩, hmonth.1⟩, hmonth.2⟩, hday.1⟩, hday.2⟩

end Date

/-! ## Times moved back -/

namespace Timestamp

variable {s t : Timestamp} {offset micros : Int} {days : Nat}

theorem localMicros_nonneg (t : Timestamp) : 0 ≤ t.localMicros := by
  unfold localMicros
  exact Int.natCast_nonneg _

/-- The timestamp of a local time has this local time, and the offset. -/
theorem localMicros_of_ofLocal? (h : ofLocal? micros offset = some s) : s.localMicros = micros ∧ s.offset = offset := by
  unfold ofLocal? at h
  split at h
  · cases h
  · rename_i hpos
    split at h
    · rename_i d hd
      have hn := Date.dayNumber_of_ofDayNumber? hd
      have hlt : micros.toNat % microsPerDay < microsPerDay := Nat.mod_lt _ (by decide)
      simp only [of?, dif_pos hlt] at h
      split at h
      · cases h
        refine ⟨?_, rfl⟩
        simp only [localMicros, hn, microsPerDay]
        omega
      · cases h
    · cases h

/-- Every local time from the beginning of the calendar up to that of a timestamp is that of a timestamp. -/
theorem exists_ofLocal? (ho : isOffset offset = true) (hpos : 0 ≤ micros) (hle : micros ≤ t.localMicros) :
    ∃ s, ofLocal? micros offset = some s := by
  have hlast := t.date.dayNumber_le_last
  have hfirst := t.date.one_le_dayNumber
  have hclock := t.clock_lt
  have hlt : micros.toNat % microsPerDay < microsPerDay := Nat.mod_lt _ (by decide)
  have hday : micros.toNat / microsPerDay + 1 ≤ Date.lastDayNumber := by
    simp only [localMicros, microsPerDay] at hle hclock ⊢
    omega
  obtain ⟨d, hd⟩ := Date.exists_ofDayNumber? (Nat.le_add_left 1 _) hday
  refine ⟨⟨d, _, offset, hlt, ho⟩, ?_⟩
  rw [ofLocal?, if_neg (Int.not_lt.mpr hpos), hd]
  simp only [of?, dif_pos hlt, dif_pos ho]

theorem daysBefore_eq (hdays : days ≤ maxDays) : t.daysBefore days = t.shifted (-(days * microsPerDay)) := by
  have hcheck : checkDays days = .ok () := by
    unfold checkDays
    rw [if_neg]
    rw [Int.natAbs_natCast]
    exact Nat.not_lt.mpr hdays
  simp only [daysBefore, hcheck, bind, Except.bind]

/-- **A time can be moved back by a number of days exactly if the calendar reaches so far.** -/
theorem exists_daysBefore_iff (hdays : days ≤ maxDays) :
    (∃ s, t.daysBefore days = .ok s) ↔ (days * microsPerDay : Int) ≤ t.localMicros := by
  rw [daysBefore_eq hdays, shifted, shift?]
  constructor
  · rintro ⟨s, h⟩
    split at h
    · rename_i s' hs
      have hlocal := (localMicros_of_ofLocal? hs).1
      have hnonneg := s'.localMicros_nonneg
      omega
    · cases h
  · intro h
    have hpos : (0 : Int) ≤ days * microsPerDay := Int.mul_nonneg (Int.natCast_nonneg _) (Int.natCast_nonneg _)
    have hleft : 0 ≤ t.localMicros + -(days * microsPerDay) := by omega
    obtain ⟨s, hs⟩ := exists_ofLocal? (t := t) t.offset_valid hleft (by omega)
    exact ⟨s, by rw [hs]⟩

/-- A time moved back by some days is earlier by them, with the same offset. -/
theorem instant_of_daysBefore {n : Int} (h : t.daysBefore n = .ok s) :
    s.instant = t.instant - n * microsPerDay ∧ s.offset = t.offset := by
  obtain ⟨_, _, h⟩ := bind_eq_ok.mp h
  unfold shifted at h
  split at h
  · rename_i s' hs
    cases h
    obtain ⟨hlocal, hoffset⟩ := localMicros_of_ofLocal? hs
    refine ⟨?_, hoffset⟩
    simp only [instant, hlocal, hoffset]
    omega
  · cases h

/-! ## Beginnings -/

/-- The midnight that begins a month of the year of a time, with the same offset. -/
structure BeginsMonth (t : Timestamp) (month : Nat) (s : Timestamp) : Prop where
  year : s.date.year = t.date.year
  month : s.date.month = month
  day : s.date.day = 1
  clock : s.clock = 0
  offset : s.offset = t.offset

variable {m : Nat}

/-- Each of the months of the year of a time begins at a midnight. -/
theorem exists_beginsMonth (t : Timestamp) (h1 : 1 ≤ m) (h12 : m ≤ 12) :
    ∃ s, ((Date.of? t.date.year m 1).bind fun d => of? d 0 t.offset) = some s ∧ t.BeginsMonth m s := by
  obtain ⟨⟨⟨⟨⟨hy, hy'⟩, _⟩, _⟩, _⟩, _⟩ := t.date.bounds
  have hvalid : isDate t.date.year m 1 = true := by
    have hmonth : 1 ≤ daysInMonth t.date.year m := by
      unfold daysInMonth
      split
      · split <;> decide
      all_goals decide
    simp only [isDate, Bool.and_eq_true, decide_eq_true_eq]
    exact ⟨⟨⟨⟨⟨hy, hy'⟩, h1⟩, h12⟩, Nat.le_refl 1⟩, hmonth⟩
  refine ⟨⟨⟨_, _, _, hvalid⟩, 0, t.offset, by decide, t.offset_valid⟩, ?_, rfl, rfl, rfl, rfl, rfl⟩
  simp only [Date.of?, dif_pos hvalid, Option.bind_some, of?, dif_pos t.offset_valid]
  rfl

theorem exists_startOfMonth (t : Timestamp) : ∃ s, t.startOfMonth = some s ∧ t.BeginsMonth t.date.month s := by
  obtain ⟨⟨⟨⟨_, h1⟩, h12⟩, _⟩, _⟩ := t.date.bounds
  exact t.exists_beginsMonth h1 h12

theorem exists_startOfYear (t : Timestamp) : ∃ s, t.startOfYear = some s ∧ t.BeginsMonth 1 s :=
  t.exists_beginsMonth (by decide) (by decide)

theorem BeginsMonth.instant_eq (h : t.BeginsMonth m s) :
    s.instant = (Date.daysBeforeYear t.date.year + Date.daysBeforeMonth t.date.year m) * microsPerDay - t.offset := by
  simp only [instant, localMicros, Date.dayNumber, h.year, h.month, h.day, h.clock, h.offset, Nat.add_sub_cancel,
    Nat.add_zero]
  push_cast
  rfl

/-- The month of a time begins less than 31 days before it. -/
theorem BeginsMonth.lt_instant (h : t.BeginsMonth t.date.month s) : t.instant - 31 * microsPerDay < s.instant := by
  have hday := Nat.le_trans t.date.bounds.2 (daysInMonth_le _ _)
  have hclock := t.clock_lt
  rw [h.instant_eq]
  simp only [instant, localMicros, Date.dayNumber, microsPerDay] at hclock ⊢
  omega

/-- A year begins no later than its months. -/
theorem BeginsMonth.instant_le {s' : Timestamp} (h : t.BeginsMonth 1 s) (h' : t.BeginsMonth m s') :
    s.instant ≤ s'.instant := by
  have hzero : Date.daysBeforeMonth t.date.year 1 = 0 := rfl
  rw [h.instant_eq, h'.instant_eq, hzero]
  simp only [microsPerDay]
  omega

end Timestamp

end Shelfmark
