import Mathlib.Data.List.TakeWhile
import Shelfmark.Number
import Shelfmark.Proofs.Decimal.Digits
import Shelfmark.Proofs.Decimal.Parts
import Shelfmark.Proofs.Decimal.Shortest

/-!
# Numerals of doubles

Digits and a point are written as a numeral that spells their number (`spells_render`) and no other (`Spells.unique`),
and the shortest digits of a double round to the double and to no other.  So no two doubles have one text
(`shortest_injective`), and neither have two numbers (`text_injective`).
-/

namespace Shelfmark.Decimal

/-! ## What a numeral stands for -/

/-- The exponent at the end of a numeral. -/
def exponentValue : List Char → Int
  | 'e' :: sign :: ds => if sign = '-' then -(Nat.ofDigitChars 10 ds 0 : Int) else Nat.ofDigitChars 10 ds 0
  | _ => 0

/-- The digits behind a point, and the rest. -/
def fractionValue : List Char → List Char × List Char
  | '.' :: rest => (rest.takeWhile Char.isDigit, rest.dropWhile Char.isDigit)
  | rest => ([], rest)

/-- The number that a numeral without a sign stands for. -/
def numeralValue (cs : List Char) : ℚ :=
  let (fraction, rest) := fractionValue (cs.dropWhile Char.isDigit)
  (Nat.ofDigitChars 10 (cs.takeWhile Char.isDigit ++ fraction) 0 : ℚ) * 10 ^ (exponentValue rest - fraction.length)

/-- An exponent with its sign. -/
def exponentText (exponent : Int) : List Char :=
  'e' :: (if exponent < 0 then '-' else '+') :: padDigits 2 exponent.natAbs

theorem exponentValue_exponentText (exponent : Int) : exponentValue (exponentText exponent) = exponent := by
  simp only [exponentText, exponentValue, ofDigitChars_padDigits]
  by_cases h : exponent < 0
  · rw [if_pos h, if_pos rfl]
    omega
  · rw [if_neg h, if_neg (by decide)]
    omega

section Parts

variable {whole fraction rest : List Char} (hwhole : ∀ c ∈ whole, c.isDigit = true)
  (hfraction : ∀ c ∈ fraction, c.isDigit = true)
include hwhole

theorem numeralValue_exponent (exponent : Int) :
    numeralValue (whole ++ exponentText exponent) = Nat.ofDigitChars 10 whole 0 * 10 ^ exponent := by
  have hrest : (exponentText exponent).takeWhile Char.isDigit = [] := rfl
  have hrest' : (exponentText exponent).dropWhile Char.isDigit = exponentText exponent := rfl
  have hfraction : fractionValue (exponentText exponent) = ([], exponentText exponent) := rfl
  rw [numeralValue, List.takeWhile_append_of_pos hwhole, List.dropWhile_append_of_pos hwhole, hrest, hrest', hfraction]
  simp [exponentValue_exponentText]

include hfraction

theorem numeralValue_point (hrest : rest.takeWhile Char.isDigit = []) (hrest' : rest.dropWhile Char.isDigit = rest) :
    numeralValue (whole ++ '.' :: (fraction ++ rest)) =
      Nat.ofDigitChars 10 (whole ++ fraction) 0 * 10 ^ (exponentValue rest - fraction.length) := by
  have hpoint : ('.' :: (fraction ++ rest)).takeWhile Char.isDigit = [] := rfl
  have hpoint' : ('.' :: (fraction ++ rest)).dropWhile Char.isDigit = '.' :: (fraction ++ rest) := rfl
  rw [numeralValue, List.takeWhile_append_of_pos hwhole, List.dropWhile_append_of_pos hwhole, hpoint, hpoint',
    fractionValue, List.takeWhile_append_of_pos hfraction, List.dropWhile_append_of_pos hfraction, hrest, hrest']
  simp

end Parts

/-! ## Spelling -/

/-- A numeral without a sign that spells a number: digits around a point with an exponent or without, or digits with an
exponent. -/
inductive Spells (q : ℚ) : List Char → Prop
  | plain {whole fraction : List Char} (hwhole : ∀ c ∈ whole, c.isDigit = true)
      (hfraction : ∀ c ∈ fraction, c.isDigit = true)
      (hq : (Nat.ofDigitChars 10 (whole ++ fraction) 0 : ℚ) * 10 ^ (-(fraction.length : Int)) = q) :
      Spells q (whole ++ '.' :: fraction)
  | scientific {whole fraction : List Char} {exponent : Int} (hwhole : ∀ c ∈ whole, c.isDigit = true)
      (hfraction : ∀ c ∈ fraction, c.isDigit = true)
      (hq : (Nat.ofDigitChars 10 (whole ++ fraction) 0 : ℚ) * 10 ^ (exponent - fraction.length) = q) :
      Spells q (whole ++ '.' :: (fraction ++ exponentText exponent))
  | exponent {whole : List Char} {exponent : Int} (hwhole : ∀ c ∈ whole, c.isDigit = true)
      (hq : (Nat.ofDigitChars 10 whole 0 : ℚ) * 10 ^ exponent = q) : Spells q (whole ++ exponentText exponent)

namespace Spells

variable {q q' : ℚ} {cs : List Char}

theorem numeralValue_eq (h : Spells q cs) : numeralValue cs = q := by
  cases h with
  | plain hwhole hfraction hq =>
    have hend : ([] : List Char).takeWhile Char.isDigit = [] := rfl
    have hvalue := numeralValue_point hwhole hfraction hend rfl
    rw [List.append_nil, show exponentValue [] = 0 from rfl, zero_sub] at hvalue
    exact hvalue.trans hq
  | scientific hwhole hfraction hq =>
    rw [numeralValue_point hwhole hfraction rfl rfl, exponentValue_exponentText]
    exact hq
  | exponent hwhole hq => rw [numeralValue_exponent hwhole, hq]

/-- **A numeral spells one number.** -/
theorem unique (h : Spells q cs) (h' : Spells q' cs) : q = q' := h.numeralValue_eq.symm.trans h'.numeralValue_eq

theorem mem_exponentText {c : Char} {exponent : Int} (h : c ∈ exponentText exponent) :
    c.isDigit = true ∨ c ∈ ['e', '-', '+'] := by
  unfold exponentText at h
  rcases List.mem_cons.mp h with rfl | h
  · exact Or.inr (by decide)
  · rcases List.mem_cons.mp h with rfl | h
    · split <;> exact Or.inr (by decide)
    · exact Or.inl (isDigit_of_mem_padDigits h)

/-- Besides digits there are only a few signs. -/
theorem mem_chars (h : Spells q cs) {c : Char} (hc : c ∈ cs) : c.isDigit = true ∨ c ∈ ['.', 'e', '-', '+'] := by
  have hmark : ∀ {exponent : Int}, c ∈ exponentText exponent → c.isDigit = true ∨ c ∈ ['.', 'e', '-', '+'] :=
    fun h => (mem_exponentText h).imp_right (List.mem_cons_of_mem _)
  cases h with
  | plain hwhole hfraction =>
    simp only [List.mem_append, List.mem_cons] at hc
    rcases hc with hc | rfl | hc
    · exact Or.inl (hwhole c hc)
    · exact Or.inr (by decide)
    · exact Or.inl (hfraction c hc)
  | scientific hwhole hfraction =>
    simp only [List.mem_append, List.mem_cons] at hc
    rcases hc with hc | rfl | hc | hc
    · exact Or.inl (hwhole c hc)
    · exact Or.inr (by decide)
    · exact Or.inl (hfraction c hc)
    · exact hmark hc
  | exponent hwhole =>
    rcases List.mem_append.mp hc with hc | hc
    · exact Or.inl (hwhole c hc)
    · exact hmark hc

/-- A point or an exponent tells the numeral from that of an integer. -/
theorem mem_point (h : Spells q cs) : '.' ∈ cs ∨ 'e' ∈ cs := by
  cases h with
  | plain | scientific => exact Or.inl (by simp)
  | exponent => exact Or.inr (by simp [exponentText])

/-- The first character is no sign. -/
theorem head_ne (h : Spells q cs) : cs.head? ≠ some '-' := by
  have hhead : ∀ {whole rest : List Char} {c : Char}, (∀ c ∈ whole, c.isDigit = true) → c ≠ '-' →
      (whole ++ c :: rest).head? ≠ some '-' := by
    intro whole rest c hwhole hc
    cases whole with
    | nil => simpa using hc
    | cons d ds =>
      intro hd
      have hdigit := hwhole d List.mem_cons_self
      rw [Option.some.inj hd] at hdigit
      exact absurd hdigit (by decide)
  cases h with
  | plain hwhole | scientific hwhole | exponent hwhole => exact hhead hwhole (by decide)

end Spells

/-! ## Digits as numerals -/

/-- The digits without the zeros at their end. -/
def Digits.trimmed (d : Digits) : Digits := ⟨dropEndZeros d.digits, d.point⟩

theorem dropEndZeros_append (ds : List Char) : ∃ count, ds = dropEndZeros ds ++ List.replicate count '0' := by
  have hzeros : ds.reverse.takeWhile (· == '0') = List.replicate (ds.reverse.takeWhile (· == '0')).length '0' := by
    refine List.eq_replicate_of_mem fun c hc => ?_
    simpa using List.mem_takeWhile_imp hc
  have hsplit := congrArg List.reverse (List.takeWhile_append_dropWhile (p := (· == '0')) (l := ds.reverse))
  rw [List.reverse_append, List.reverse_reverse, hzeros, List.reverse_replicate] at hsplit
  exact ⟨_, hsplit.symm⟩

theorem ofDigitChars_zeros (ds : List Char) (count : Nat) :
    Nat.ofDigitChars 10 (ds ++ List.replicate count '0') 0 = 10 ^ count * Nat.ofDigitChars 10 ds 0 := by
  rw [Nat.ofDigitChars_append, Nat.ofDigitChars_replicate_zero]

/-- Zeros at the end do not count. -/
theorem value_trimmed (d : Digits) : d.trimmed.value = d.value := by
  obtain ⟨count, hcount⟩ := dropEndZeros_append d.digits
  have hten : (10 : ℚ) ^ (d.point - (dropEndZeros d.digits).length) =
      10 ^ count * 10 ^ (d.point - ((dropEndZeros d.digits).length + count : Nat)) := by
    rw [← zpow_natCast, ← zpow_add₀ (by norm_num)]
    congr 1
    push_cast
    ring
  rw [Digits.value, Digits.value]
  conv_rhs => rw [hcount, ofDigitChars_zeros, List.length_append, List.length_replicate]
  rw [Digits.trimmed, hten]
  push_cast
  ring

theorem isDigit_of_mem_trimmed {d : Digits} (h : ∀ c ∈ d.digits, c.isDigit = true) :
    ∀ c ∈ d.trimmed.digits, c.isDigit = true := by
  intro c hc
  obtain ⟨count, hcount⟩ := dropEndZeros_append d.digits
  exact h c (hcount ▸ List.mem_append_left _ hc)

/-! ## Digits as they are written -/

theorem isDigit_of_mem_replicate {count : Nat} {c : Char} (h : c ∈ List.replicate count '0') : c.isDigit = true := by
  rw [List.eq_of_mem_replicate h]
  rfl

theorem isDigit_zero : ∀ c ∈ ['0'], c.isDigit = true := List.forall_mem_singleton.mpr rfl

section Layouts

variable {ds : List Char} {point : Int} (hds : ∀ c ∈ ds, c.isDigit = true)
include hds

/-- Zeros stand between the point and the first digit. -/
theorem spells_below_one (hpoint : point ≤ 0) : Spells (Digits.value ⟨ds, point⟩)
    (['0'] ++ '.' :: (List.replicate (-point).toNat '0' ++ ds)) := by
  refine .plain isDigit_zero (fun c hc => ?_) ?_
  · rcases List.mem_append.mp hc with hc | hc
    · exact isDigit_of_mem_replicate hc
    · exact hds c hc
  · have hzero : Nat.ofDigitChars 10 ['0'] 0 = 0 := by decide
    rw [Nat.ofDigitChars_append, hzero, Nat.ofDigitChars_append, Nat.ofDigitChars_replicate_zero, Nat.mul_zero]
    rw [Digits.value, List.length_append, List.length_replicate]
    congr 2
    push_cast
    omega

/-- Zeros stand between the last digit and the point. -/
theorem spells_whole (hpoint : 0 < point) (hcount : ds.length ≤ point.toNat) : Spells (Digits.value ⟨ds, point⟩)
    ((ds ++ List.replicate (point.toNat - ds.length) '0') ++ '.' :: ['0']) := by
  refine .plain (fun c hc => ?_) isDigit_zero ?_
  · rcases List.mem_append.mp hc with hc | hc
    · exact hds c hc
    · exact isDigit_of_mem_replicate hc
  · have hzeros : ds ++ List.replicate (point.toNat - ds.length) '0' ++ ['0'] =
        ds ++ List.replicate (point.toNat - ds.length + 1) '0' := by
      rw [List.append_assoc, ← List.replicate_succ']
    rw [hzeros, ofDigitChars_zeros, Digits.value, Nat.cast_mul, Nat.cast_pow, Nat.cast_ofNat, mul_right_comm,
      ← zpow_natCast, ← zpow_add₀ (by norm_num), mul_comm]
    congr 2
    simp only [List.length_singleton]
    omega

/-- The point stands between two digits. -/
theorem spells_mixed (hpoint : 0 < point) (hcount : point.toNat < ds.length) : Spells (Digits.value ⟨ds, point⟩)
    (ds.take point.toNat ++ '.' :: ds.drop point.toNat) := by
  refine .plain (fun c hc => hds c (List.mem_of_mem_take hc)) (fun c hc => hds c (List.mem_of_mem_drop hc)) ?_
  rw [List.take_append_drop, Digits.value, List.length_drop]
  congr 2
  dsimp only
  omega

/-- At most one digit and an exponent. -/
theorem spells_exponent (point : Int) (hcount : ds.length ≤ 1) : Spells (Digits.value ⟨ds, point⟩)
    (ds.take 1 ++ exponentText (point - 1)) := by
  refine .exponent (fun c hc => hds c (List.mem_of_mem_take hc)) ?_
  rw [List.take_of_length_le hcount, Digits.value]
  cases ds with
  | nil => simp
  | cons d rest =>
    congr 2
    simp only [List.length_cons] at hcount ⊢
    omega

/-- Several digits and an exponent. -/
theorem spells_scientific (point : Int) (hcount : 1 < ds.length) : Spells (Digits.value ⟨ds, point⟩)
    (ds.take 1 ++ '.' :: (ds.drop 1 ++ exponentText (point - 1))) := by
  refine .scientific (fun c hc => hds c (List.mem_of_mem_take hc)) (fun c hc => hds c (List.mem_of_mem_drop hc)) ?_
  rw [List.take_append_drop, Digits.value, List.length_drop]
  congr 2
  dsimp only
  omega

end Layouts

/-- **Digits and a point are spelled by their text.** -/
theorem spells_render {d : Digits} (h : ∀ c ∈ d.digits, c.isDigit = true) : Spells d.value d.render.toList := by
  have hds : ∀ c ∈ dropEndZeros d.digits, c.isDigit = true := isDigit_of_mem_trimmed h
  rw [← value_trimmed, Digits.trimmed]
  unfold Digits.render
  dsimp only
  split
  · split
    · rename_i hpoint
      simpa using spells_below_one hds hpoint
    · rename_i hpoint
      split
      · rename_i hcount
        simpa using spells_whole hds (by omega) hcount
      · rename_i hcount
        simpa using spells_mixed hds (by omega) (by omega)
  · have hsign : (if d.point - 1 < 0 then "-" else "+").toList = [if d.point - 1 < 0 then '-' else '+'] := by
      split <;> rfl
    have hempty : "".toList = [] := rfl
    have hpoint : ".".toList = ['.'] := rfl
    have hmark : "e".toList = ['e'] := rfl
    by_cases hcount : (dropEndZeros d.digits).length ≤ 1
    · rw [if_pos hcount]
      simpa only [String.toList_append, String.toList_ofList, hempty, hmark, hsign, exponentText, List.append_assoc,
        List.cons_append, List.nil_append] using spells_exponent hds d.point hcount
    · rw [if_neg hcount]
      simpa only [String.toList_append, String.toList_ofList, hpoint, hmark, hsign, exponentText, List.append_assoc,
        List.cons_append, List.nil_append] using spells_scientific hds d.point (by omega)

/-! ## Texts of doubles -/

section Shortest

variable {x y : Float} {p p' : Parts}

/-- The text of a finite double is its sign and a numeral, which spells zero or a number that rounds to the double. -/
theorem shortest_finite (h : parts? x = some p) : ∃ cs q, Spells q cs ∧
    (shortest x).toList = (if p.negative then ['-'] else []) ++ cs ∧
    (p.mantissa = 0 ∧ p.exponent = -1074 ∧ q = 0 ∨
      IsDouble p.mantissa p.exponent ∧ Rounds p.mantissa p.exponent q) := by
  have hsign : (if p.negative then "-" else "").toList = if p.negative then ['-'] else [] := by
    split <;> rfl
  by_cases hzero : p.mantissa = 0
  · have hdigits : Nat.ofDigitChars 10 (['0'] ++ ['0']) 0 = 0 := by decide
    obtain ⟨_, _, ⟨_, _, hexponent⟩ | ⟨_, hmantissa, _⟩⟩ := parts?_eq_some h
    · refine ⟨['0'] ++ '.' :: ['0'], 0,
        .plain isDigit_zero isDigit_zero (by rw [hdigits, Nat.cast_zero, zero_mul]), ?_, Or.inl ⟨hzero, hexponent, rfl⟩⟩
      simp [shortest, h, hzero, hsign]
    · omega
  · have hdouble := isDouble_of_parts? h (Nat.pos_of_ne_zero hzero)
    have hspells := spells_render fun c (hc : c ∈ (shortestDigits p.mantissa p.exponent).digits) =>
      isDigit_of_mem_shortestDigits hc
    refine ⟨_, _, hspells, ?_, Or.inr ⟨hdouble, rounds_shortestDigits hdouble⟩⟩
    simp [shortest, h, hzero, hsign]

/-- A sign in front of a numeral is told from the numeral. -/
theorem sign_inj {q q' : ℚ} {cs cs' : List Char} {negative negative' : Bool} (h : Spells q cs) (h' : Spells q' cs')
    (heq : (if negative then ['-'] else []) ++ cs = (if negative' then ['-'] else []) ++ cs') :
    negative = negative' ∧ cs = cs' := by
  cases negative <;> cases negative'
  · exact ⟨rfl, by simpa using heq⟩
  · have hcs : cs = '-' :: cs' := by simpa using heq
    exact absurd (hcs ▸ rfl) h.head_ne
  · have hcs : '-' :: cs = cs' := by simpa using heq
    exact absurd (hcs ▸ rfl) h'.head_ne
  · exact ⟨rfl, by simpa using heq⟩

/-- **Finite doubles with one text have the same parts.** -/
theorem parts_eq_of_shortest (hx : parts? x = some p) (hy : parts? y = some p') (h : shortest x = shortest y) :
    p = p' := by
  obtain ⟨cs, q, hspells, htext, hq⟩ := shortest_finite hx
  obtain ⟨cs', q', hspells', htext', hq'⟩ := shortest_finite hy
  rw [h, htext'] at htext
  obtain ⟨hnegative, rfl⟩ := sign_inj hspells' hspells htext
  obtain rfl := hspells.unique hspells'
  have hmagnitude : p.mantissa = p'.mantissa ∧ p.exponent = p'.exponent := by
    rcases hq with ⟨hm, he, rfl⟩ | ⟨hdouble, hrounds⟩ <;> rcases hq' with ⟨hm', he', hzero⟩ | ⟨hdouble', hrounds'⟩
    · exact ⟨hm.trans hm'.symm, he.trans he'.symm⟩
    · exact absurd rfl (hrounds'.pos hdouble').ne
    · exact absurd hzero (hrounds.pos hdouble).ne'
    · exact hrounds.unique hdouble hdouble' hrounds'
  obtain ⟨negative, mantissa, exponent⟩ := p
  obtain ⟨negative', mantissa', exponent'⟩ := p'
  simp only at hnegative hmagnitude
  rw [hnegative, hmagnitude.1, hmagnitude.2]

/-- A text holds the letter of the words for doubles that are not finite, unless it is that of a finite double. -/
theorem not_mem_shortest (h : parts? x = some p) : 'n' ∉ (shortest x).toList := by
  obtain ⟨cs, q, hspells, htext, _⟩ := shortest_finite h
  rw [htext, List.mem_append]
  rintro (hmem | hmem)
  · split at hmem <;> simp at hmem
  · rcases hspells.mem_chars hmem with hdigit | hmark <;> simp_all

theorem mem_shortest (h : parts? x = none) : 'n' ∈ (shortest x).toList := by
  rcases eq_of_parts?_none h with rfl | rfl | rfl <;> decide +kernel

/-- **No two doubles have one text.** -/
theorem shortest_injective (h : shortest x = shortest y) : x = y := by
  cases hx : parts? x with
  | some p =>
    cases hy : parts? y with
    | some p' =>
      obtain rfl := parts_eq_of_shortest hx hy h
      exact parts?_injective hx hy
    | none => exact absurd (h ▸ mem_shortest hy) (not_mem_shortest hx)
  | none =>
    cases hy : parts? y with
    | some p' => exact absurd (h ▸ mem_shortest hx) (not_mem_shortest hy)
    | none =>
      rcases eq_of_parts?_none hx with rfl | rfl | rfl <;> rcases eq_of_parts?_none hy with rfl | rfl | rfl <;>
        first | rfl | exact absurd h (by decide +kernel)

end Shortest

end Shelfmark.Decimal

/-! ## Texts of numbers -/

namespace Shelfmark.Number

open Decimal

theorem isDigit_of_mem_repr {k : Nat} {c : Char} (h : c ∈ k.repr.toList) : c.isDigit = true := by
  rw [Nat.repr_eq_ofList_toDigits, String.toList_ofList] at h
  exact Nat.isDigit_of_mem_toDigits (by decide) (by decide) h

theorem toString_negSucc (k : Nat) : (toString (Int.negSucc k)).toList = '-' :: (k + 1).repr.toList :=
  String.toList_append

/-- The text of an integer holds nothing but digits and a sign. -/
theorem mem_toString {n : Int} {c : Char} (h : c ∈ (toString n).toList) : c.isDigit = true ∨ c = '-' := by
  cases n with
  | ofNat k => exact Or.inl (isDigit_of_mem_repr h)
  | negSucc k =>
    rw [toString_negSucc, List.mem_cons] at h
    exact h.symm.imp_left isDigit_of_mem_repr

theorem repr_nat_injective {k k' : Nat} (h : k.repr.toList = k'.repr.toList) : k = k' := by
  rw [Nat.repr_eq_ofList_toDigits, Nat.repr_eq_ofList_toDigits, String.toList_ofList, String.toList_ofList] at h
  calc k = Nat.ofDigitChars 10 (Nat.toDigits 10 k) 0 := Nat.ofDigitChars_ten_toDigits.symm
    _ = k' := by rw [h, Nat.ofDigitChars_ten_toDigits]

/-- No two integers have one text. -/
theorem toString_int_injective {n n' : Int} (h : toString n = toString n') : n = n' := by
  have hsign : ∀ {k k' : Nat}, k.repr.toList ≠ '-' :: k'.repr.toList := by
    intro k k' heq
    exact absurd (isDigit_of_mem_repr (k := k) (heq ▸ List.mem_cons_self)) (by decide)
  have hlists := congrArg String.toList h
  cases n with
  | ofNat k =>
    cases n' with
    | ofNat k' => rw [repr_nat_injective hlists]
    | negSucc k' => exact absurd (hlists.trans (toString_negSucc k')) hsign
  | negSucc k =>
    cases n' with
    | ofNat k' => exact absurd (hlists.symm.trans (toString_negSucc k)) hsign
    | negSucc k' =>
      rw [toString_negSucc, toString_negSucc, List.cons.injEq] at hlists
      have hsucc := repr_nat_injective hlists.2
      rw [Nat.succ.inj hsucc]

/-- The text of a double is not that of an integer: it holds a point, an exponent or a word. -/
theorem toString_ne_shortest (n : Int) (x : Float) : toString n ≠ shortest x := by
  intro h
  have hmem : ∃ c ∈ (shortest x).toList, c ∈ ['.', 'e', 'n'] := by
    cases hx : parts? x with
    | none => exact ⟨'n', mem_shortest hx, by decide⟩
    | some p =>
      obtain ⟨cs, q, hspells, htext, _⟩ := shortest_finite hx
      rw [htext]
      rcases hspells.mem_point with hc | hc
      · exact ⟨'.', List.mem_append_right _ hc, by decide⟩
      · exact ⟨'e', List.mem_append_right _ hc, by decide⟩
  obtain ⟨c, hc, hmark⟩ := hmem
  rcases mem_toString (h ▸ hc) with hdigit | rfl
  · simp only [List.mem_cons, List.not_mem_nil, or_false] at hmark
    rcases hmark with rfl | rfl | rfl <;> exact absurd hdigit (by decide)
  · exact absurd hmark (by decide)

/-- **No two numbers have one text.** -/
theorem text_injective {a b : Number} (h : a.text = b.text) : a = b := by
  cases a with
  | int n =>
    cases b with
    | int n' => exact congrArg int (toString_int_injective h)
    | real y => exact absurd h (toString_ne_shortest n y)
  | real x =>
    cases b with
    | int n' => exact absurd h.symm (toString_ne_shortest n' x)
    | real y => exact congrArg real (shortest_injective h)

end Shelfmark.Number
