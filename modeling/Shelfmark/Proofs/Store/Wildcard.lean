import Mathlib.Data.List.Infix
import Mathlib.Data.List.TakeWhile
import Shelfmark.Store.Wildcard

/-!
# Escaped wildcards

What is escaped three times over is escaped once (`escape_eq`), and the signs of an escaped text are its characters
(`signs?_within`).  So the pattern for the texts in which a text occurs stands for these texts and no others, apart from
the case of ASCII letters (`accepts_within`).
-/

namespace Shelfmark.Wildcard

variable {cs part text : List Char}

/-! ## Reading -/

theorem read_of_not_mem (h : '\x00' ∉ cs) : read cs = cs.map asRead := by
  have hall : ∀ c ∈ cs, (c != '\x00') = true := fun c hc => bne_iff_ne.mpr fun he => h (he ▸ hc)
  rw [read, List.takeWhile_eq_self_iff.mpr hall]

theorem read_append (h : '\x00' ∉ part) (text : List Char) : read (part ++ text) = read part ++ read text := by
  have hall : ∀ c ∈ part, (c != '\x00') = true := fun c hc => bne_iff_ne.mpr fun he => h (he ▸ hc)
  rw [read_of_not_mem h, read, read, List.takeWhile_append_of_pos hall, List.map_append]

/-- A text without a NUL and without the two codes that are no characters is read as it stands. -/
theorem read_of_plain (h : ∀ c ∈ cs, c ≠ '\x00' ∧ c ≠ '\ufffe' ∧ c ≠ '\uffff') : read cs = cs := by
  have hplain : ∀ c ∈ cs, asRead c = c := fun c hc => by simp [asRead, (h c hc).2]
  rw [read_of_not_mem fun hc => (h _ hc).1 rfl, List.map_congr_left hplain, List.map_id']

/-! ## Escaping -/

/-- The characters that are escaped. -/
def IsSpecial (c : Char) : Prop := c = escapeChar ∨ c = '%' ∨ c = '_'

instance (c : Char) : Decidable (IsSpecial c) := by unfold IsSpecial; infer_instance

/-- A character, behind the escape character if it is special. -/
def escaped (c : Char) : List Char := if IsSpecial c then [escapeChar, c] else [c]

/-- **What is escaped for one character after the other is escaped once.** -/
theorem escape_eq (cs : List Char) : escape cs = cs.flatMap escaped := by
  simp only [escape, escaping, List.flatMap_assoc]
  refine List.flatMap_congr fun c _ => ?_
  by_cases hescape : c = escapeChar
  · subst hescape
    decide
  · by_cases hpercent : c = '%'
    · subst hpercent
      decide
    · simp [escaped, IsSpecial, hescape, hpercent]

/-- Special characters are read as they stand, and no other character is read as one. -/
theorem escaped_asRead (c : Char) : (escaped c).map asRead = escaped (asRead c) := by
  by_cases hc : c = '\ufffe' ∨ c = '\uffff'
  · rcases hc with rfl | rfl <;> decide
  · have hplain : asRead c = c := by simp [asRead, not_or.mp hc]
    have hescape : asRead escapeChar = escapeChar := by decide
    rw [hplain, escaped]
    split <;> simp [hplain, hescape]

theorem not_mem_within (h : '\x00' ∉ part) : '\x00' ∉ within part := by
  have hne : '\x00' ≠ escapeChar := by decide
  have hescaped : '\x00' ∉ escape part := by
    rw [escape_eq, List.mem_flatMap]
    rintro ⟨c, hc, hmem⟩
    unfold escaped at hmem
    split at hmem
    · rcases List.mem_cons.mp hmem with he | hmem
      · exact hne he
      · exact h (List.mem_singleton.mp hmem ▸ hc)
    · exact h (List.mem_singleton.mp hmem ▸ hc)
  simp [within, hescaped]

/-- A pattern is read by reading the text that is looked for. -/
theorem read_within (h : '\x00' ∉ part) : read (within part) = within (read part) := by
  have hpercent : asRead '%' = '%' := by decide
  have hescape : (escape part).map asRead = escape (part.map asRead) := by
    rw [escape_eq, escape_eq, List.map_flatMap, List.flatMap_map]
    exact List.flatMap_congr fun c _ => escaped_asRead c
  rw [read_of_not_mem (not_mem_within h), read_of_not_mem h, within, List.map_append, List.map_cons, hescape]
  simp [within, hpercent]

/-! ## Signs -/

/-- The sign of an escaped character is the character. -/
theorem signs?_escaped (c : Char) (rest : List Char) :
    signs? (escaped c ++ rest) = (signs? rest).map (.letter c :: ·) := by
  by_cases hc : IsSpecial c
  · simp [escaped, hc, signs?]
  · have hne : c ≠ escapeChar ∧ c ≠ '%' ∧ c ≠ '_' := by simpa [IsSpecial] using hc
    have hsign : Sign.of c = .letter c := by simp [Sign.of, hne]
    cases rest with
    | nil => simp [escaped, hc, signs?, hne, hsign]
    | cons d rest => simp [escaped, hc, signs?, hne, hsign]

/-- The signs of an escaped text are its characters. -/
theorem signs?_escape (rest : List Char) : ∀ cs : List Char,
    signs? (escape cs ++ rest) = (signs? rest).map (cs.map .letter ++ ·)
  | [] => by simp [escape, escaping]
  | c :: cs => by
    have hrest := signs?_escape rest cs
    rw [escape_eq] at hrest ⊢
    rw [List.flatMap_cons, List.append_assoc, signs?_escaped, hrest, Option.map_map]
    rfl

theorem signs?_within (cs : List Char) :
    signs? (within cs) = some (.anything :: (cs.map .letter ++ [.anything])) := by
  have hlast : signs? ['%'] = some [.anything] := rfl
  have hbody := signs?_escape ['%'] cs
  rw [hlast, Option.map_some] at hbody
  have hpercent : ('%' == escapeChar) = false := by decide
  cases hcs : escape cs ++ ['%'] with
  | nil => simp at hcs
  | cons d rest =>
    rw [within, List.cons_append, hcs, signs?, hpercent, ← hcs, hbody]
    rfl

/-! ## Texts that fit -/

theorem fitsFrom_iff {p : List Char → Bool} : ∀ {cs : List Char},
    fitsFrom p cs = true ↔ ∃ back, back <:+ cs ∧ p back = true
  | [] => by simp [fitsFrom]
  | c :: cs => by
    rw [fitsFrom, Bool.or_eq_true, fitsFrom_iff]
    simp only [List.suffix_cons_iff, or_and_right, exists_or, exists_eq_left]

/-- Characters fit the front of a text in which they stand, apart from the case of ASCII letters. -/
theorem fits_letters (signs : List Sign) : ∀ {cs text : List Char}, fits (cs.map .letter ++ signs) text = true ↔
    ∃ front back, text = front ++ back ∧ front.map Char.toLower = cs.map Char.toLower ∧ fits signs back = true
  | [], text => by simp
  | c :: cs, [] => by simp [fits]
  | c :: cs, d :: text => by
    rw [List.map_cons, List.cons_append, fits, Bool.and_eq_true, beq_iff_eq, fits_letters signs]
    constructor
    · rintro ⟨hd, front, back, rfl, hfront, hback⟩
      exact ⟨d :: front, back, rfl, by rw [List.map_cons, List.map_cons, hd, hfront], hback⟩
    · rintro ⟨_ | ⟨d', front⟩, back, htext, hfront, hback⟩
      · cases hfront
      · rw [List.cons_append, List.cons.injEq] at htext
        rw [List.map_cons, List.map_cons, List.cons.injEq] at hfront
        exact ⟨htext.1 ▸ hfront.1.symm, front, back, htext.2, hfront.2, hback⟩

theorem fits_anything (text : List Char) : fits [.anything] text = true := by
  have hempty : fits [] [] = true := rfl
  exact fitsFrom_iff.mpr ⟨[], List.nil_suffix, hempty⟩

/-- The characters of a text as they are read, in lower case. -/
def folded (cs : List Char) : List Char := (read cs).map Char.toLower

/-- **The pattern for the texts in which a text occurs stands for these texts and no others,** as they are read and
apart from the case of ASCII letters. -/
theorem accepts_within (h : '\x00' ∉ part) :
    accepts (within part) text = true ↔ folded part <:+: folded text := by
  rw [accepts, read_within h, signs?_within, Option.any_some, fits, fitsFrom_iff, folded, folded]
  constructor
  · rintro ⟨back, ⟨before, hback⟩, hfits⟩
    obtain ⟨found, behind, rfl, hfound, _⟩ := (fits_letters _).mp hfits
    rw [← hback, ← hfound, List.map_append, List.map_append]
    exact ⟨_, _, List.append_assoc _ _ _⟩
  · rintro ⟨before, behind, htext⟩
    obtain ⟨front, back, hread, hfront, hback⟩ := List.map_eq_append_iff.mp htext.symm
    obtain ⟨before, found, rfl, _, hfound⟩ := List.map_eq_append_iff.mp hfront
    refine ⟨found ++ back, ⟨before, by rw [hread, List.append_assoc]⟩, ?_⟩
    exact (fits_letters _).mpr ⟨found, back, rfl, hfound, fits_anything back⟩

end Shelfmark.Wildcard
