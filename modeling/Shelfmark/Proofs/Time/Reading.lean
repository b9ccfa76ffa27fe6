import Shelfmark.Proofs.Decimal.Digits
import Shelfmark.Time.Epoch

/-!
# Reading what was written

The text of a timestamp is read back as the same timestamp, with its own offset and to the microsecond
(`parseIso?_isoText`).

- A number of fixed width is read back (`number?_padded`), and so are a time of day and an offset
  (`parseClock?_texts`), which are both read as clocks (`readClock?_seconds`, `readClock?_minutes`);
- a date is read back (`parseDate?_dateText`) from the first ten characters (`dateLength?_dateText`).
-/

namespace Shelfmark.Timestamp

variable {n width : Nat} {rest : List Char}

/-! ## Numbers -/

theorem digit?_of_isDigit {c : Char} (h : c.isDigit = true) : digit? c = some (c.toNat - 48) := by
  simp [digit?, h]

/-- Digits are read as the number that they spell. -/
theorem number?_append (rest : List Char) : ∀ {ds : List Char}, (∀ c ∈ ds, c.isDigit = true) →
    number? ds.length (ds ++ rest) = some (Nat.ofDigitChars 10 ds 0, rest)
  | [], _ => rfl
  | c :: ds, h => by
    have hc : digit? c = some (c.toNat - 48) := digit?_of_isDigit (h c List.mem_cons_self)
    have hds := number?_append rest fun d hd => h d (List.mem_cons_of_mem c hd)
    have hvalue : Nat.ofDigitChars 10 (c :: ds) 0 =
        (c.toNat - 48) * Nat.pow 10 ds.length + Nat.ofDigitChars 10 ds 0 := by
      rw [Nat.ofDigitChars_cons, Nat.ofDigitChars_eq_ofDigitChars_zero]
      simp [Nat.mul_comm]
    simp only [List.length_cons, List.cons_append, number?, hc, hds, hvalue]

theorem padded_eq_padDigits : padded = Decimal.padDigits := rfl

/-- **A number of fixed width is read back.** -/
theorem number?_padded (hw : 0 < width) (hn : n < 10 ^ width) (rest : List Char) :
    number? width (padded width n ++ rest) = some (n, rest) := by
  have hdigits : ∀ c ∈ padded width n, c.isDigit = true := fun c hc => Decimal.isDigit_of_mem_padDigits hc
  have hread := number?_append rest hdigits
  rwa [padded_eq_padDigits, Decimal.length_padDigits hw hn, Decimal.ofDigitChars_padDigits] at hread

theorem isDigit_of_mem_padded {c : Char} (h : c ∈ padded width n) : c.isDigit = true :=
  Decimal.isDigit_of_mem_padDigits h

/-- A number of fixed width begins with a digit. -/
theorem exists_padded_eq_cons (hw : 0 < width) (hn : n < 10 ^ width) :
    ∃ c ds, padded width n = c :: ds ∧ c.isDigit = true := by
  have hlength : (padded width n).length = width := Decimal.length_padDigits hw hn
  cases hp : padded width n with
  | nil =>
    rw [hp] at hlength
    exact absurd hlength (by simp only [List.length_nil]; omega)
  | cons c ds => exact ⟨c, ds, rfl, isDigit_of_mem_padded (hp ▸ List.mem_cons_self)⟩

theorem padded_append_ne_nil (hw : 0 < width) (hn : n < 10 ^ width) (rest : List Char) :
    padded width n ++ rest ≠ [] := by
  obtain ⟨c, ds, hp, _⟩ := exists_padded_eq_cons hw hn
  simp [hp]

/-! ## Clocks -/

section Clocks

variable {h m s f : Nat} {colons : Bool}

theorem afterPart_colon (hrest : rest ≠ []) : afterPart true (':' :: rest) = .next rest := by
  cases rest with
  | nil => exact absurd rfl hrest
  | cons c cs => rfl

theorem afterPart_point (hrest : rest ≠ []) : afterPart colons ('.' :: rest) = .fraction rest := by
  cases rest with
  | nil => exact absurd rfl hrest
  | cons c cs => cases colons <;> rfl

/-- Six digits are read as the fraction of a second. -/
theorem readFraction?_padded (hf : f < 10 ^ 6) : readFraction? h m s (padded 6 f) = some ⟨h, m, s, f, true⟩ := by
  have hlength : (padded 6 f).length = 6 := Decimal.length_padDigits (by decide) hf
  have hread : number? 6 (padded 6 f) = some (f, []) := by simpa using number?_padded (by decide) hf []
  simp [readFraction?, hlength, hread]

/-- Seconds are read together with their fraction. -/
theorem readSeconds?_text (hs : s < 10 ^ 2) (hf : f < 10 ^ 6) :
    readSeconds? true h m (padded 2 s ++ fractionText f) = some ⟨h, m, s, f, true⟩ := by
  have hread := number?_padded (by decide) hs (fractionText f)
  by_cases hzero : f = 0
  · subst hzero
    simp only [readSeconds?, hread]
    rfl
  · have htext : fractionText f = '.' :: padded 6 f := by simp [fractionText, hzero]
    have hne : padded 6 f ≠ [] := by simpa using padded_append_ne_nil (by decide) hf []
    rw [htext] at hread ⊢
    simp only [readSeconds?, hread, afterPart_point hne, readFraction?_padded hf]

/-- **A clock is read with its seconds and their fraction.** -/
theorem readClock?_seconds (hh : h < 10 ^ 2) (hm : m < 10 ^ 2) (hs : s < 10 ^ 2) (hf : f < 10 ^ 6) :
    readClock? (padded 2 h ++ ':' :: (padded 2 m ++ ':' :: (padded 2 s ++ fractionText f))) =
      some ⟨h, m, s, f, true⟩ := by
  have hseconds : padded 2 s ++ fractionText f ≠ [] := padded_append_ne_nil (by decide) hs _
  have hminutes : readMinutes? true h (padded 2 m ++ ':' :: (padded 2 s ++ fractionText f)) =
      some ⟨h, m, s, f, true⟩ := by
    have hread := number?_padded (by decide) hm (':' :: (padded 2 s ++ fractionText f))
    simp only [readMinutes?, hread, afterPart_colon hseconds, readSeconds?_text hs hf]
  have hne : padded 2 m ++ ':' :: (padded 2 s ++ fractionText f) ≠ [] := padded_append_ne_nil (by decide) hm _
  have hread := number?_padded (by decide) hh (':' :: (padded 2 m ++ ':' :: (padded 2 s ++ fractionText f)))
  simp only [readClock?, hread, List.head?_cons, beq_self_eq_true, afterPart_colon hne, hminutes]

/-- **A clock without seconds is read.** -/
theorem readClock?_minutes (hh : h < 10 ^ 2) (hm : m < 10 ^ 2) :
    readClock? (padded 2 h ++ ':' :: padded 2 m) = some ⟨h, m, 0, 0, true⟩ := by
  have hminutes : readMinutes? true h (padded 2 m) = some ⟨h, m, 0, 0, true⟩ := by
    have hread : number? 2 (padded 2 m) = some (m, []) := by simpa using number?_padded (by decide) hm []
    simp only [readMinutes?, hread, afterPart]
  have hne : padded 2 m ≠ [] := by simpa using padded_append_ne_nil (by decide) hm []
  have hread := number?_padded (by decide) hh (':' :: padded 2 m)
  simp only [readClock?, hread, List.head?_cons, beq_self_eq_true, afterPart_colon hne, hminutes]

end Clocks

/-! ## Times of day and offsets -/

/-- The parts of a number of microseconds. -/
def clockOf (n : Nat) : ClockReading :=
  let s := n / microsPerSecond
  ⟨s / 3600, s / 60 % 60, s % 60, n % microsPerSecond, true⟩

theorem total_clockOf (n : Nat) : (clockOf n).total = n := by
  simp only [clockOf, ClockReading.total, microsPerSecond]
  omega

theorem hours_clockOf_lt (h : n < microsPerDay) : (clockOf n).hours < 24 := by
  simp only [clockOf, microsPerSecond, microsPerDay] at h ⊢
  omega

/-- The text of a time of day is read as its parts. -/
theorem readClock?_clockText (h : n < microsPerDay) : readClock? (clockText n) = some (clockOf n) := by
  have hh := hours_clockOf_lt h
  have hm : (clockOf n).minutes < 60 := Nat.mod_lt _ (by decide)
  have hs : (clockOf n).seconds < 60 := Nat.mod_lt _ (by decide)
  have hf : (clockOf n).micros < 10 ^ 6 := Nat.mod_lt _ (by decide)
  have hread := readClock?_seconds (by omega : (clockOf n).hours < 10 ^ 2) (by omega : (clockOf n).minutes < 10 ^ 2)
    (by omega : (clockOf n).seconds < 10 ^ 2) hf
  simpa only [clockText, List.append_assoc, List.cons_append, clockOf] using hread

/-- What is written behind the sign of an offset is read as its parts. -/
theorem readClock?_offset (h : n < microsPerDay) :
    readClock? (padded 2 (clockOf n).hours ++ ':' :: (padded 2 (clockOf n).minutes ++
      (if (clockOf n).seconds == 0 && (clockOf n).micros == 0 then []
        else ':' :: (padded 2 (clockOf n).seconds ++ fractionText (clockOf n).micros)))) = some (clockOf n) := by
  have hh := hours_clockOf_lt h
  have hm : (clockOf n).minutes < 60 := Nat.mod_lt _ (by decide)
  split
  · rename_i hzero
    have hread := readClock?_minutes (by omega : (clockOf n).hours < 10 ^ 2) (by omega : (clockOf n).minutes < 10 ^ 2)
    rw [Bool.and_eq_true, beq_iff_eq, beq_iff_eq] at hzero
    have hclock : clockOf n =
        ⟨(clockOf n).hours, (clockOf n).minutes, (clockOf n).seconds, (clockOf n).micros, true⟩ := rfl
    rw [hzero.1, hzero.2] at hclock
    rw [List.append_nil, hread, ← hclock]
  · have hs : (clockOf n).seconds < 60 := Nat.mod_lt _ (by decide)
    have hf : (clockOf n).micros < 10 ^ 6 := Nat.mod_lt _ (by decide)
    exact readClock?_seconds (by omega) (by omega) (by omega) hf

/-- What stands behind a sign is read as a clock. -/
theorem readZone?_sign {sign : Char} {r : ClockReading} (hsign : sign ≠ 'Z') (hread : readClock? rest = some r)
    (hcomplete : r.complete = true) : readZone? (sign :: rest) =
      some (some (if r.total < microsPerSecond then 0 else if sign == '-' then -(r.total : Int) else r.total)) := by
  unfold readZone?
  split
  · rename_i hcons
    cases hcons
  · rename_i hcons
    exact absurd (List.cons.inj hcons).1 hsign
  · rename_i hcons
    obtain ⟨rfl, rfl⟩ := List.cons.inj hcons
    simp only [hread, hcomplete, Bool.not_true, Bool.false_eq_true, if_false]
    split <;> rfl

/-- **An offset is read back.** -/
theorem readZone?_offsetText {offset : Int} (h : isOffset offset = true) :
    readZone? (offsetText offset) = some (some offset) := by
  have hbound : offset = 0 ∨ microsPerSecond ≤ offset.natAbs ∧ offset.natAbs < microsPerDay := by
    simpa [isOffset] using h
  have hlt : offset.natAbs < microsPerDay := by
    rcases hbound with rfl | ⟨_, hlt⟩
    · decide
    · exact hlt
  have hsign : (if offset < 0 then '-' else '+') ≠ 'Z' := by split <;> decide
  have hread := readZone?_sign hsign (readClock?_offset hlt) rfl
  rw [total_clockOf] at hread
  have htext : readZone? (offsetText offset) = some (some (if offset.natAbs < microsPerSecond then 0
      else if (if offset < 0 then '-' else '+') == '-' then -(offset.natAbs : Int) else offset.natAbs)) := by
    rw [← hread]
    simp only [offsetText, clockOf, List.append_assoc, List.cons_append]
    rfl
  rw [htext]
  rcases hbound with rfl | ⟨hsecond, _⟩
  · rfl
  · rw [if_neg (by omega)]
    by_cases hneg : offset < 0
    · rw [if_pos hneg, if_pos (by decide), show -(offset.natAbs : Int) = offset by omega]
    · rw [if_neg hneg, if_neg (by decide), show (offset.natAbs : Int) = offset by omega]

theorem beginsZone_of_isDigit {c : Char} (h : c.isDigit = true) : beginsZone c = false := by
  cases hz : beginsZone c with
  | false => rfl
  | true =>
    have hc : (c = '+' ∨ c = '-') ∨ c = 'Z' := by simpa only [beginsZone, Bool.or_eq_true, beq_iff_eq] using hz
    rcases hc with (rfl | rfl) | rfl <;> exact absurd h (by decide)

/-- No offset begins inside a time of day. -/
theorem beginsZone_of_mem_clockText {c : Char} (h : c ∈ clockText n) : beginsZone c = false := by
  have hfraction : c ∈ fractionText (n % microsPerSecond) → beginsZone c = false := by
    intro hc
    unfold fractionText at hc
    split at hc
    · cases hc
    · rcases List.mem_cons.mp hc with rfl | hc
      · rfl
      · exact beginsZone_of_isDigit (isDigit_of_mem_padded hc)
  simp only [clockText, List.mem_append, List.mem_cons] at h
  rcases h with ((h | rfl | h) | rfl | h) | h
  · exact beginsZone_of_isDigit (isDigit_of_mem_padded h)
  · rfl
  · exact beginsZone_of_isDigit (isDigit_of_mem_padded h)
  · rfl
  · exact beginsZone_of_isDigit (isDigit_of_mem_padded h)
  · exact hfraction h

/-- An offset begins with its sign. -/
theorem beginsZone_offsetText (offset : Int) : ∃ c cs, offsetText offset = c :: cs ∧ beginsZone c = true := by
  refine ⟨if offset < 0 then '-' else '+', _, rfl, ?_⟩
  split <;> rfl

/-- **A time of day and an offset are read back.** -/
theorem parseClock?_texts {offset : Int} (hn : n < microsPerDay) (ho : isOffset offset = true) :
    parseClock? (clockText n ++ offsetText offset) = some (n, some offset) := by
  obtain ⟨c, cs, hoffset, hc⟩ := beginsZone_offsetText offset
  have hbody : ∀ d ∈ clockText n, (!beginsZone d) = true := fun d hd => by
    rw [beginsZone_of_mem_clockText hd]
    rfl
  have htake : (clockText n ++ offsetText offset).takeWhile (fun d => !beginsZone d) = clockText n := by
    rw [List.takeWhile_append_of_pos hbody, hoffset, List.takeWhile_cons_of_neg (by simp [hc]), List.append_nil]
  have hdrop : (clockText n ++ offsetText offset).dropWhile (fun d => !beginsZone d) = offsetText offset := by
    rw [List.dropWhile_append_of_pos hbody, hoffset, List.dropWhile_cons_of_neg (by simp [hc])]
  have hminutes : (clockOf n).minutes < 60 := Nat.mod_lt _ (by decide)
  have hseconds : (clockOf n).seconds < 60 := Nat.mod_lt _ (by decide)
  simp only [parseClock?, htake, hdrop, readClock?_clockText hn, readZone?_offsetText ho, Option.isSome_some,
    Bool.true_or, Bool.true_and, decide_eq_true (hours_clockOf_lt hn), decide_eq_true hminutes,
    decide_eq_true hseconds, if_true, total_clockOf]

/-! ## Dates -/

/-- The text of a date. -/
def dateText (d : Date) : List Char := padded 4 d.year ++ '-' :: (padded 2 d.month ++ '-' :: padded 2 d.day)

theorem isoChars_eq (t : Timestamp) :
    t.isoChars = dateText t.date ++ 'T' :: (clockText t.clock ++ offsetText t.offset) := by
  simp only [isoChars, dateText, List.append_assoc, List.cons_append]

variable {d : Date}

theorem year_lt (d : Date) : d.year < 10 ^ 4 := by
  have hvalid := d.valid
  simp only [isDate, Bool.and_eq_true, decide_eq_true_eq] at hvalid
  omega

theorem month_lt (d : Date) : d.month < 10 ^ 2 := by
  have hvalid := d.valid
  simp only [isDate, Bool.and_eq_true, decide_eq_true_eq] at hvalid
  omega

theorem daysInMonth_le (y m : Nat) : daysInMonth y m ≤ 31 := by
  unfold daysInMonth
  split
  · split <;> decide
  all_goals decide

theorem day_lt (d : Date) : d.day < 10 ^ 2 := by
  have hvalid := d.valid
  have hmonth := daysInMonth_le d.year d.month
  simp only [isDate, Bool.and_eq_true, decide_eq_true_eq] at hvalid
  omega

theorem of?_date (d : Date) : Date.of? d.year d.month d.day = some d := by
  unfold Date.of?
  rw [dif_pos d.valid]

/-- **A date is read back.** -/
theorem parseDate?_dateText (d : Date) : parseDate? (dateText d) = some d := by
  have hyear := number?_padded (by decide) (year_lt d) ('-' :: (padded 2 d.month ++ '-' :: padded 2 d.day))
  have hmonth := number?_padded (by decide) (month_lt d) ('-' :: padded 2 d.day)
  have hday : number? 2 (padded 2 d.day) = some (d.day, []) := by simpa using number?_padded (by decide) (day_lt d) []
  obtain ⟨c, cs, hp, hc⟩ := exists_padded_eq_cons (by decide) (month_lt d)
  have hweek : c ≠ 'W' := by
    rintro rfl
    exact absurd hc (by decide)
  unfold parseDate? dateText
  rw [hyear]
  simp only [List.head?_cons, beq_self_eq_true, if_true, List.drop_succ_cons, List.drop_zero]
  split
  · rename_i rest hrest
    rw [hp] at hrest
    exact absurd (List.cons.inj hrest).1 hweek
  · rw [hmonth]
    simp [hday, of?_date]

theorem length_dateText (d : Date) : (dateText d).length = 10 := by
  have hyear : (padded 4 d.year).length = 4 := Decimal.length_padDigits (by decide) (year_lt d)
  have hmonth : (padded 2 d.month).length = 2 := Decimal.length_padDigits (by decide) (month_lt d)
  have hday : (padded 2 d.day).length = 2 := Decimal.length_padDigits (by decide) (day_lt d)
  simp [dateText, hyear, hmonth, hday]

/-- The date takes ten characters. -/
theorem dateLength?_dateText (d : Date) (rest : List Char) : dateLength? (dateText d ++ rest) = some 10 := by
  have hyear : (padded 4 d.year).length = 4 := Decimal.length_padDigits (by decide) (year_lt d)
  obtain ⟨c, cs, hp, hc⟩ := exists_padded_eq_cons (by decide) (month_lt d)
  have hweek : c ≠ 'W' := by
    rintro rfl
    exact absurd hc (by decide)
  have hlength : ((dateText d ++ rest).length == 7) = false := by
    rw [List.length_append, length_dateText, beq_eq_false_iff_ne]
    omega
  have hchars : dateText d ++ rest = padded 4 d.year ++ ('-' :: c :: (cs ++ '-' :: (padded 2 d.day ++ rest))) := by
    simp [dateText, hp]
  have hdash : (dateText d ++ rest)[4]? = some '-' := by
    rw [hchars, List.getElem?_append_right (by omega), hyear]
    rfl
  have hfirst : (dateText d ++ rest)[5]? = some c := by
    rw [hchars, List.getElem?_append_right (by omega), hyear]
    rfl
  have hother : (some c == some 'W') = false := by simpa using hweek
  simp only [dateLength?, hlength, hdash, hfirst, hother, beq_self_eq_true, Bool.false_eq_true, if_true, if_false]

/-! ## Timestamps -/

theorem of?_parts (t : Timestamp) : of? t.date t.clock t.offset = some t := by
  unfold of?
  rw [dif_pos t.clock_lt, dif_pos t.offset_valid]

/-- **The text of a timestamp is read back as the same timestamp.** -/
theorem parseIso?_isoText (t : Timestamp) : parseIso? t.isoText = some t := by
  have hchars : t.isoText.toList = dateText t.date ++ 'T' :: (clockText t.clock ++ offsetText t.offset) := by
    rw [isoText, String.toList_ofList, isoChars_eq]
  have hlength : ¬(dateText t.date ++ 'T' :: (clockText t.clock ++ offsetText t.offset)).length < 7 := by
    rw [List.length_append, length_dateText]
    omega
  have htake : (dateText t.date ++ 'T' :: (clockText t.clock ++ offsetText t.offset)).take 10 = dateText t.date :=
    List.take_left' (length_dateText t.date)
  have hdrop : (dateText t.date ++ 'T' :: (clockText t.clock ++ offsetText t.offset)).drop 10 =
      'T' :: (clockText t.clock ++ offsetText t.offset) := List.drop_left' (length_dateText t.date)
  simp only [parseIso?, hchars, hlength, if_false, dateLength?_dateText, htake, hdrop, parseDate?_dateText,
    parseClock?_texts t.clock_lt t.offset_valid, Option.getD_some, of?_parts]

theorem isoText_ne_empty (t : Timestamp) : t.isoText ≠ "" := by
  intro he
  have hread := parseIso?_isoText t
  rw [he] at hread
  exact absurd hread (by simp [parseIso?])

/-- **A timestamp in a record is read back.** -/
theorem ofJson_toJson (t : Timestamp) : ofJson t.toJson = .ok (some t) := by
  have hne : t.isoText.isEmpty = false := by simpa using isoText_ne_empty t
  simp only [toJson, ofJson, hne, Bool.false_eq_true, if_false, ofText, parseIso?_isoText]
  rfl

end Shelfmark.Timestamp
