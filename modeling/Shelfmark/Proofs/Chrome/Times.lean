import Shelfmark.Chrome.Tree
import Shelfmark.Proofs.Decimal.Parts
import Shelfmark.Proofs.Time.Calendar

/-!
# Timestamps of bookmarks files

A value that is or spells a positive whole number stands for the time so many microseconds after the beginning of 1601,
and any other value for none (`timeOf_of_not_excessive`).  Only excessive values fail (`timeOf_of_excessive`,
`exists_timeOf_iff`): the infinities, and numbers that lead beyond the end of the calendar.
-/

namespace Shelfmark

namespace Timestamp

variable {t : Timestamp} {micros : Int}

theorem isDate_last : isDate 9999 12 31 = true := by decide

theorem lastClock_lt : microsPerDay - 1 < microsPerDay := by decide

/-- The last microsecond of the calendar in universal time. -/
def lastTime : Timestamp := ⟨⟨9999, 12, 31, isDate_last⟩, microsPerDay - 1, 0, lastClock_lt, epoch.offset_valid⟩

theorem localMicros_of_offset_zero (h : t.offset = 0) : t.localMicros = t.instant := by
  rw [instant, h, Int.sub_zero]

/-- No local time is later than the last one. -/
theorem localMicros_le_last (t : Timestamp) : t.localMicros ≤ lastTime.instant := by
  have hday := t.date.dayNumber_le_last
  have hclock := t.clock_lt
  have hlast : lastTime.instant = (Date.lastDayNumber * microsPerDay - 1 : Nat) := by decide +kernel
  rw [hlast]
  simp only [localMicros, microsPerDay, Date.lastDayNumber] at hday hclock ⊢
  omega

/-- **In universal time there is a timestamp for every instant up to the last one.** -/
theorem ofLocal?_zero (hpos : 0 ≤ micros) :
    (micros ≤ lastTime.instant → ∃ t, ofLocal? micros 0 = some t ∧ t.instant = micros ∧ t.offset = 0) ∧
      (lastTime.instant < micros → ofLocal? micros 0 = none) := by
  constructor
  · intro hle
    obtain ⟨t, ht⟩ := exists_ofLocal? (t := lastTime) (by decide : isOffset 0 = true) hpos
      ((localMicros_of_offset_zero (t := lastTime) rfl).symm ▸ hle)
    obtain ⟨hlocal, hoffset⟩ := localMicros_of_ofLocal? ht
    exact ⟨t, ht, localMicros_of_offset_zero hoffset ▸ hlocal, hoffset⟩
  · intro hlt
    cases ht : ofLocal? micros 0 with
    | none => rfl
    | some t =>
      have hlast := t.localMicros_le_last
      rw [(localMicros_of_ofLocal? ht).1] at hlast
      exact absurd hlt (Int.not_lt.mpr hlast)

end Timestamp

namespace Chrome

variable {v : Json} {n : Int} {m : Nat} {t : Timestamp}

theorem isDate_first : isDate 1601 1 1 = true := by decide

/-- The beginning of 1601 in universal time, from which timestamps count. -/
def firstTime : Timestamp := { Timestamp.epoch with date := ⟨1601, 1, 1, isDate_first⟩ }

theorem instant_firstTime : firstTime.instant = firstInstant := by decide +kernel

/-- An infinity, or a number of microseconds after the beginning of 1601 that leads beyond the end of the calendar. -/
inductive Excessive : Json → Prop
  | infinite {x : Float} (h : x.isInf = true) : Excessive (.float x)
  | late {v : Json} {n : Int} (hn : wholeNumber v = .ok (some n))
      (h : Timestamp.lastTime.instant < firstTime.instant + n) : Excessive v

theorem wholeNumber_of_isInf {x : Float} (h : x.isInf = true) :
    wholeNumber (.float x) = .error (.outOfRange "cannot convert float infinity to integer") := by
  obtain ⟨hwhole, hnumber⟩ := Decimal.isInf_iff.mp h
  simp only [wholeNumber, hwhole, hnumber, Bool.false_eq_true, if_false]

/-- A number that stays within the calendar is not excessive. -/
theorem not_excessive_of_le (hn : wholeNumber v = .ok (some n))
    (h : firstTime.instant + n ≤ Timestamp.lastTime.instant) : ¬Excessive v := by
  intro hexcessive
  cases hexcessive with
  | infinite hinf =>
    rw [wholeNumber_of_isInf hinf] at hn
    cases hn
  | late hn' hlt =>
    rw [hn] at hn'
    cases hn'
    exact absurd hlt (Int.not_lt.mpr h)

/-- Only an infinity has neither a whole number nor none. -/
theorem wholeNumber_eq_error {e : Fault} (h : wholeNumber v = .error e) :
    ∃ x : Float, v = .float x ∧ x.isInf = true ∧ e = .outOfRange "cannot convert float infinity to integer" := by
  cases v with
  | float x =>
    simp only [wholeNumber] at h
    split at h
    · cases h
    · rename_i hwhole
      split at h
      · cases h
      · rename_i hnumber
        cases h
        exact ⟨x, rfl, Decimal.isInf_iff.mpr ⟨hwhole, by simpa using hnumber⟩, rfl⟩
  | null | bool | int | str | arr | obj => cases h

/-- A number of microseconds that stays within the calendar leads to a time. -/
theorem exists_timeAfter (h : firstTime.instant + m ≤ Timestamp.lastTime.instant) :
    ∃ t, timeAfter m = .ok t ∧ t.instant = firstTime.instant + m ∧ t.offset = 0 := by
  have hlast : Timestamp.lastTime.instant - firstTime.instant < maxDays * microsPerDay := by decide +kernel
  have hdays : checkDays ((m : Int).fdiv microsPerDay) = .ok () := by
    unfold checkDays
    rw [if_neg]
    rw [Int.fdiv_eq_ediv_of_nonneg _ (by decide)]
    simp only [microsPerDay, maxDays] at hlast ⊢
    omega
  rw [instant_firstTime] at h ⊢
  obtain ⟨t, ht, hinstant, hoffset⟩ := (Timestamp.ofLocal?_zero (by simp only [firstInstant]; omega)).1 h
  refine ⟨t, ?_, hinstant, hoffset⟩
  simp only [timeAfter, hdays, ht, bind, Except.bind]
  rfl

/-- A greater number of microseconds fails. -/
theorem timeAfter_of_lt (h : Timestamp.lastTime.instant < firstTime.instant + m) :
    ∃ what, timeAfter m = .error (.outOfRange what) := by
  rw [instant_firstTime] at h
  have hnone := (Timestamp.ofLocal?_zero (by simp only [firstInstant]; omega)).2 h
  unfold timeAfter checkDays
  split
  · exact ⟨_, rfl⟩
  · refine ⟨"date value out of range", ?_⟩
    simp only [hnone, bind, Except.bind]

/-- The time of a value with a whole number. -/
theorem timeOf_of_wholeNumber (h : wholeNumber v = .ok (some n)) :
    timeOf v = if n ≤ 0 then .ok none else (timeAfter n.toNat).map some := by
  simp only [timeOf, h, bind, Except.bind]
  rfl

/-- **An excessive value fails.** -/
theorem timeOf_of_excessive (h : Excessive v) : ∃ what, timeOf v = .error (.outOfRange what) := by
  cases h with
  | infinite h =>
    refine ⟨"cannot convert float infinity to integer", ?_⟩
    simp only [timeOf, wholeNumber_of_isInf h, bind, Except.bind]
  | late hn h =>
    rename_i n
    have hpos : 0 < n := by
      have hfirst : firstTime.instant < Timestamp.lastTime.instant := by decide +kernel
      omega
    have hnat : (n.toNat : Int) = n := Int.toNat_of_nonneg (Int.le_of_lt hpos)
    obtain ⟨what, hfails⟩ := timeAfter_of_lt (m := n.toNat) (hnat.symm ▸ h)
    exact ⟨what, by rw [timeOf_of_wholeNumber hn, if_neg (Int.not_le.mpr hpos), hfails]; rfl⟩

/-- **Any other value stands for a time or for none:** for the time its number of microseconds after the beginning of
1601 if it has a positive one. -/
theorem timeOf_of_not_excessive (h : ¬Excessive v) :
    timeOf v = .ok none ∧ (∀ n, wholeNumber v = .ok (some n) → n ≤ 0) ∨
      ∃ n t, wholeNumber v = .ok (some n) ∧ 0 < n ∧ timeOf v = .ok (some t) ∧
        t.instant = firstTime.instant + n ∧ t.offset = 0 := by
  cases hn : wholeNumber v with
  | error e =>
    obtain ⟨x, rfl, hinf, _⟩ := wholeNumber_eq_error hn
    exact absurd (.infinite hinf) h
  | ok n? =>
    cases n? with
    | none => exact .inl ⟨by simp only [timeOf, hn, bind, Except.bind]; rfl, fun n he => by cases he⟩
    | some n =>
      have htime := timeOf_of_wholeNumber hn
      by_cases hpos : n ≤ 0
      · refine .inl ⟨by rw [htime, if_pos hpos], fun n' he => ?_⟩
        cases he
        exact hpos
      · rw [if_neg hpos] at htime
        have hnat : (n.toNat : Int) = n := Int.toNat_of_nonneg (by omega)
        have hle : firstTime.instant + n.toNat ≤ Timestamp.lastTime.instant := by
          rw [hnat]
          exact Int.not_lt.mp fun hlt => h (.late hn hlt)
        obtain ⟨t, ht, hinstant, hoffset⟩ := exists_timeAfter hle
        rw [ht] at htime
        exact .inr ⟨n, t, rfl, Int.not_le.mp hpos, htime, hnat ▸ hinstant, hoffset⟩

/-- The time of a value is as long after the beginning of 1601 as its number says. -/
theorem instant_of_timeOf (hn : wholeNumber v = .ok (some n)) (ht : timeOf v = .ok (some t)) :
    t.instant = firstTime.instant + n := by
  by_cases h : Excessive v
  · obtain ⟨what, hfails⟩ := timeOf_of_excessive h
    rw [ht] at hfails
    cases hfails
  · rcases timeOf_of_not_excessive h with ⟨hnone, _⟩ | ⟨n', t', hn', _, ht', hinstant, _⟩
    · rw [ht] at hnone
      cases hnone
    · rw [ht] at ht'
      rw [hn] at hn'
      cases ht'
      cases hn'
      exact hinstant

/-- A value stands for a time or for none exactly if it is not excessive. -/
theorem exists_timeOf_iff : (∃ t, timeOf v = .ok t) ↔ ¬Excessive v := by
  constructor
  · rintro ⟨t, ht⟩ hexcessive
    obtain ⟨what, hfails⟩ := timeOf_of_excessive hexcessive
    rw [ht] at hfails
    cases hfails
  · intro h
    rcases timeOf_of_not_excessive h with ⟨ht, _⟩ | ⟨_, t, _, _, ht, _⟩
    · exact ⟨_, ht⟩
    · exact ⟨_, ht⟩

end Chrome

end Shelfmark
