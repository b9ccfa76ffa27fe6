import Mathlib.Data.List.TakeWhile
import Shelfmark.Json.Printer
import Shelfmark.Json.Reader
import Shelfmark.Proofs.Decimal.Numerals

/-!
# Texts and whole numbers in JSON

What is written for a text is read as this text (`textBody_quoted`), character by character: a short escape, a
character as it is, or one or two escaped units.  What is written for a whole number is read as this number
(`number_int`) if it has no more digits than can be read and what follows does not continue it.
-/

namespace Shelfmark.Json

/-! ## Escapes -/

theorem hexValue?_hexDigit : ∀ n < 16, hexValue? (hexDigit n) = some n := by decide

/-- Four hexadecimal digits spell a unit. -/
theorem hex4?_unit {n : Nat} (h : n < 0x10000) :
    hex4? (hexDigit (n / 4096 % 16)) (hexDigit (n / 256 % 16)) (hexDigit (n / 16 % 16)) (hexDigit (n % 16)) =
      some n := by
  have hdigit : ∀ k, hexValue? (hexDigit (k % 16)) = some (k % 16) :=
    fun k => hexValue?_hexDigit _ (Nat.mod_lt k (by decide))
  simp only [hex4?, hdigit, Option.bind_eq_bind, Option.bind_some, Option.pure_def, Option.some.injEq]
  omega

section Characters

variable {c : Char} {rest : List Char}

/-- A character is outside the range of the halves of surrogate pairs. -/
theorem not_surrogate (c : Char) : c.toNat < 0xd800 ∨ 0xdfff < c.toNat ∧ c.toNat < 0x110000 := c.valid

theorem textBody_unit {n : Nat} (hn : n < 0x10000) (hs : n < 0xd800 ∨ 0xdfff < n) :
    textBody none (escapeUnit n ++ rest) = withChar (Char.ofNat n) (textBody none rest) := by
  have hhigh : ¬(0xd800 ≤ n ∧ n < 0xdc00) := by omega
  have hlow : ¬(0xdc00 ≤ n ∧ n < 0xe000) := by omega
  rw [escapeUnit]
  simp [textBody, hex4?_unit hn, hhigh, hlow]

/-- Two halves of a surrogate pair stand for one character. -/
theorem textBody_pair {n : Nat} (hn : n < 0x100000) :
    textBody none (escapeUnit (0xd800 + n / 1024) ++ (escapeUnit (0xdc00 + n % 1024) ++ rest)) =
      withChar (Char.ofNat (0x10000 + n)) (textBody none rest) := by
  obtain ⟨high, hhigh⟩ : ∃ high, 0xd800 + n / 1024 = high := ⟨_, rfl⟩
  obtain ⟨low, hlow⟩ : ∃ low, 0xdc00 + n % 1024 = low := ⟨_, rfl⟩
  have hfirst : textBody none (escapeUnit high ++ (escapeUnit low ++ rest)) =
      textBody (some high) (escapeUnit low ++ rest) := by
    have hrange : 0xd800 ≤ high ∧ high < 0xdc00 := by omega
    rw [escapeUnit]
    simp [textBody, hex4?_unit (show high < 0x10000 by omega), hrange]
  have hsecond : textBody (some high) (escapeUnit low ++ rest) =
      withChar (Char.ofNat (0x10000 + n)) (textBody none rest) := by
    have hrange : 0xdc00 ≤ low ∧ low < 0xe000 := by omega
    have hsum : 0x10000 + (high - 0xd800) * 1024 + (low - 0xdc00) = 0x10000 + n := by omega
    rw [escapeUnit]
    simp [textBody, hex4?_unit (show low < 0x10000 by omega), hrange, hsum]
  rw [hhigh, hlow, hfirst, hsecond]

/-- A character that is written as it is. -/
theorem textBody_visible (hquote : c ≠ '"') (hescape : c ≠ '\\') (hc : 32 ≤ c.toNat) :
    textBody none (c :: rest) = withChar c (textBody none rest) := by
  have hlow : ¬c.toNat < 32 := by omega
  rw [textBody]
  · simp [hlow, hescape]
  all_goals simp_all

/-- **A character is read back.** -/
theorem textBody_escapeChar (c : Char) (rest : List Char) :
    textBody none (escapeChar c ++ rest) = withChar c (textBody none rest) := by
  have hself : Char.ofNat c.toNat = c := Char.ofNat_toNat c
  by_cases hshort : c ∈ ['"', '\\', '\n', '\r', '\t', Char.ofNat 12, Char.ofNat 8]
  · simp only [List.mem_cons, List.not_mem_nil, or_false] at hshort
    rcases hshort with rfl | rfl | rfl | rfl | rfl | rfl | rfl <;> rfl
  · simp only [List.mem_cons, List.not_mem_nil, or_false, not_or] at hshort
    obtain ⟨hquote, hescape, hline, hreturn, htab, hfeed, hback⟩ := hshort
    have hfeed' : c.toNat ≠ 12 := fun he => hfeed (hself ▸ congrArg Char.ofNat he)
    have hback' : c.toNat ≠ 8 := fun he => hback (hself ▸ congrArg Char.ofNat he)
    simp only [escapeChar, beq_iff_eq, hquote, hescape, hline, hreturn, htab, hfeed', hback', if_false]
    split
    · rename_i hvisible
      have hc : 32 ≤ c.toNat := by simp at hvisible; omega
      exact textBody_visible hquote hescape hc
    · split
      · rename_i hunit
        have hs := not_surrogate c
        rw [textBody_unit hunit (by omega), hself]
      · rename_i hpair
        have hs := not_surrogate c
        have hsum : 0x10000 + (c.toNat - 0x10000) = c.toNat := by omega
        rw [List.append_assoc, textBody_pair (by omega), hsum, hself]

end Characters

/-- **A text in quotes is read back.** -/
theorem textBody_quoted (rest : List Char) : ∀ cs : List Char,
    textBody none (cs.flatMap escapeChar ++ '"' :: rest) = .ok (cs, rest)
  | [] => rfl
  | c :: cs => by
    rw [List.flatMap_cons, List.append_assoc, textBody_escapeChar, textBody_quoted rest cs]
    rfl

/-! ## Whole numbers -/

/-- What follows ends a value: nothing, a comma or a closing bracket. -/
def Ends (rest : List Char) : Prop := ∀ c ∈ rest.head?, c = ',' ∨ c = ']' ∨ c = '\x7d'

section Numbers

variable {k : Nat} {n : Int} {rest : List Char}

/-- Nothing that ends a value continues a number. -/
theorem Ends.head (h : Ends rest) {c : Char} {cs : List Char} (hrest : rest = c :: cs) :
    c.isDigit = false ∧ c ≠ '.' ∧ c ≠ 'e' ∧ c ≠ 'E' := by
  rcases h c (by rw [hrest]; rfl) with rfl | rfl | rfl <;> decide

theorem takeWhile_digits (h : Ends rest) : rest.takeWhile Char.isDigit = [] ∧ rest.dropWhile Char.isDigit = rest := by
  cases rest with
  | nil => exact ⟨rfl, rfl⟩
  | cons c cs =>
    have hc := (h.head rfl).1
    simp [hc]

/-- The digits of a positive number do not begin with a zero. -/
theorem toDigits_head (hk : 0 < k) {ds : List Char} : Nat.toDigits 10 k ≠ '0' :: ds := by
  intro he
  have hdigits : ∀ c ∈ ds, c.isDigit = true := fun c hc =>
    Nat.isDigit_of_mem_toDigits (by decide) (by decide) (he ▸ List.mem_cons_of_mem _ hc)
  have hvalue : k = Nat.ofDigitChars 10 ds 0 := by
    rw [← Nat.ofDigitChars_ten_toDigits (n := k), he, Decimal.ofDigitChars_cons_eq]
    simp
  have hlt := hvalue ▸ Decimal.ofDigitChars_lt hdigits
  rcases Nat.eq_zero_or_pos ds.length with hzero | hpos
  · rw [hzero] at hlt
    omega
  · have hlength := (Nat.length_toDigits_le_iff (by decide) hpos).mpr hlt
    rw [he, List.length_cons] at hlength
    omega

/-- The digits of a number are its whole part, if what follows does not continue it. -/
theorem wholePart?_toDigits (k : Nat) (h : Ends rest) :
    wholePart? (Nat.toDigits 10 k ++ rest) = some (Nat.toDigits 10 k, rest) := by
  have hdigits : ∀ c ∈ Nat.toDigits 10 k, c.isDigit = true := fun c hc =>
    Nat.isDigit_of_mem_toDigits (by decide) (by decide) hc
  obtain ⟨htake, hdrop⟩ := takeWhile_digits h
  cases hds : Nat.toDigits 10 k with
  | nil => exact absurd hds Nat.toDigits_ne_nil
  | cons c cs =>
    rw [hds] at hdigits
    have hwhole : (c :: cs ++ rest).takeWhile Char.isDigit = c :: cs ∧
        (c :: cs ++ rest).dropWhile Char.isDigit = rest := by
      rw [List.takeWhile_append_of_pos hdigits, List.dropWhile_append_of_pos hdigits, htake, hdrop, List.append_nil]
      exact ⟨rfl, rfl⟩
    by_cases hc : c = '0'
    · have hzero : k = 0 := by
        by_contra hne
        exact toDigits_head (Nat.pos_of_ne_zero hne) (hc ▸ hds)
      subst hzero
      obtain ⟨rfl, rfl⟩ : c = '0' ∧ cs = [] := by simpa using hds.symm
      rfl
    · rw [List.cons_append, wholePart?]
      · rw [if_pos (hdigits c List.mem_cons_self), ← List.cons_append, hwhole.1, hwhole.2]
      · rintro rfl
        exact hc rfl

theorem fractionPart_of_ends (h : Ends rest) : fractionPart rest = ([], rest) := by
  cases rest with
  | nil => rfl
  | cons c cs =>
    have hc := (h.head rfl).2.1
    rw [fractionPart]
    rintro d ds he
    exact hc (List.cons.inj he).1

theorem exponentPart_of_ends (h : Ends rest) : exponentPart rest = (none, rest) := by
  cases rest with
  | nil => rfl
  | cons c cs =>
    obtain ⟨_, _, he, hE⟩ := h.head rfl
    simp [exponentPart, he, hE]

theorem ofDigits_toDigits (k : Nat) : Decimal.ofDigits ((Nat.toDigits 10 k).map fun c => c.toNat - 48) = k := by
  rw [Decimal.ofDigits, List.foldl_map]
  exact Nat.ofDigitChars_ten_toDigits

theorem number_nat (hk : (Nat.toDigits 10 k).length ≤ Decimal.maxIntDigits) (h : Ends rest) :
    number (Nat.toDigits 10 k ++ rest) = .ok (int k, rest) := by
  have hsign : ∀ cs, Nat.toDigits 10 k ++ rest ≠ '-' :: cs := by
    intro cs he
    have hmem : '-' ∈ Nat.toDigits 10 k := by
      cases hds : Nat.toDigits 10 k with
      | nil => exact absurd hds Nat.toDigits_ne_nil
      | cons c ds =>
        rw [hds, List.cons_append, List.cons.injEq] at he
        exact he.1 ▸ List.mem_cons_self
    exact absurd (Nat.isDigit_of_mem_toDigits (by decide) (by decide) hmem) (by decide)
  unfold number
  simp only [wholePart?_toDigits k h, fractionPart_of_ends h, exponentPart_of_ends h, List.isEmpty_nil,
    Option.isNone_none, Bool.and_self, if_true]
  rw [if_neg (not_lt.mpr hk)]
  simp [ofDigits_toDigits]

theorem number_neg (hk : (Nat.toDigits 10 k).length ≤ Decimal.maxIntDigits) (h : Ends rest) :
    number ('-' :: (Nat.toDigits 10 k ++ rest)) = .ok (int (-k), rest) := by
  unfold number
  simp only [wholePart?_toDigits k h, fractionPart_of_ends h, exponentPart_of_ends h, List.isEmpty_nil,
    Option.isNone_none, Bool.and_self, if_true]
  rw [if_neg (not_lt.mpr hk)]
  simp only [ofDigits_toDigits]

/-- The text of a number: its digits, behind a sign if it is negative. -/
theorem toString_cases (n : Int) : (toString n).toList = Nat.toDigits 10 n.natAbs ∧ n = n.natAbs ∨
    (toString n).toList = '-' :: Nat.toDigits 10 n.natAbs ∧ n = -n.natAbs := by
  have hdigits : ∀ k : Nat, k.repr.toList = Nat.toDigits 10 k := fun k => by
    rw [Nat.repr_eq_ofList_toDigits, String.toList_ofList]
  cases n with
  | ofNat k => exact .inl ⟨hdigits k, rfl⟩
  | negSucc k => exact .inr ⟨(Number.toString_negSucc k).trans (by rw [hdigits]; rfl), rfl⟩

/-- **A whole number is read back,** if it has no more digits than can be read. -/
theorem number_int (hn : (Nat.toDigits 10 n.natAbs).length ≤ Decimal.maxIntDigits) (h : Ends rest) :
    number ((toString n).toList ++ rest) = .ok (int n, rest) := by
  rcases toString_cases n with ⟨htext, hsign⟩ | ⟨htext, hsign⟩
  · rw [htext, number_nat hn h, ← hsign]
  · rw [htext, List.cons_append, number_neg hn h, ← hsign]

/-- A text begins with a digit, or with a sign and a digit. -/
def BeginsNumber (cs : List Char) : Prop :=
  (∃ c ds, cs = c :: ds ∧ c.isDigit = true) ∨ ∃ c ds, cs = '-' :: c :: ds ∧ c.isDigit = true

theorem BeginsNumber.append {cs : List Char} (h : BeginsNumber cs) (rest : List Char) : BeginsNumber (cs ++ rest) := by
  rcases h with ⟨c, ds, rfl, hc⟩ | ⟨c, ds, rfl, hc⟩
  · exact .inl ⟨c, ds ++ rest, rfl, hc⟩
  · exact .inr ⟨c, ds ++ rest, rfl, hc⟩

theorem BeginsNumber.head {cs : List Char} (h : BeginsNumber cs) :
    ∃ c ds, cs = c :: ds ∧ ∀ d : Char, d.isDigit = false → d ≠ '-' → d ≠ c := by
  rcases h with ⟨c, ds, rfl, hc⟩ | ⟨c, ds, rfl, _⟩
  · refine ⟨c, ds, rfl, ?_⟩
    rintro d hd _ rfl
    exact absurd hc (by simp [hd])
  · exact ⟨'-', c :: ds, rfl, fun _ _ hne => hne⟩

theorem beginsNumber_toString (n : Int) : BeginsNumber (toString n).toList := by
  have hdigits : ∃ c ds, Nat.toDigits 10 n.natAbs = c :: ds ∧ c.isDigit = true := by
    cases hds : Nat.toDigits 10 n.natAbs with
    | nil => exact absurd hds Nat.toDigits_ne_nil
    | cons c ds =>
      exact ⟨c, ds, rfl, Nat.isDigit_of_mem_toDigits (by decide) (by decide) (hds ▸ List.mem_cons_self)⟩
  obtain ⟨c, ds, hds, hc⟩ := hdigits
  rcases toString_cases n with ⟨htext, _⟩ | ⟨htext, _⟩
  · exact .inl ⟨c, ds, htext.trans hds, hc⟩
  · exact .inr ⟨c, ds, htext.trans (hds ▸ rfl), hc⟩

end Numbers

end Shelfmark.Json
