import Shelfmark.Text.Case

/-!
# Lowercase texts

- A text in lower case stays as it is when it is lowercased again (`lower_lower`): every character that lowercasing
  writes is lowercase in every context (`isLowered_of_mem_lowerIn`);
- lowercasing does not look across a blank, so texts that are joined by blanks may be lowercased one by one
  (`lowerChars_append_blank`);
- lowercasing writes something for every character, so only the empty text becomes empty (`lower_eq_empty`);
- lowercasing writes letters and marks for other characters, and so no blank and no sign of ASCII that was not there
  (`mem_of_mem_lowerChars`).
-/

namespace Shelfmark.Text

/-! ## Characters in lower case -/

/-- The character stands for itself in lower case, whatever its context. -/
def isLowered (c : Char) : Bool :=
  if c.toNat < 128 then c.toLower == c else c != '\u0130' && c != capitalSigma && lowerChar c == c

theorem lowerIn_of_isLowered {c : Char} (h : isLowered c = true) (before after : List Char) :
    lowerIn before c after = [c] := by
  unfold isLowered at h
  unfold lowerIn
  split
  · rename_i hc
    rw [if_pos hc, beq_iff_eq] at h
    rw [h]
  · rename_i hc
    simp only [if_neg hc, Bool.and_eq_true, bne_iff_ne, beq_iff_eq] at h
    obtain ⟨⟨hi, hs⟩, hl⟩ := h
    rw [if_neg (by simpa using hi), if_neg (by simpa using hs), hl]

theorem isLowered_ascii : ∀ n < 128, isLowered (Char.ofNat n).toLower = true := by decide +kernel

/-- The images of the runs are lowercase. -/
theorem isLowered_images : lowerRuns.toList.all (fun (first, last, step, image) =>
    (List.range (last - first + 1)).all fun i => i % step != 0 || isLowered (Char.ofNat (image + i))) = true := by
  decide +kernel

/-- A table of runs leaves a code point alone or maps it along one of its runs. -/
theorem mapRuns_cases (runs : Array CaseRun) (x : Nat) : mapRuns runs x = x ∨
    ∃ first last step image, (first, last, step, image) ∈ runs ∧ first ≤ x ∧ x ≤ last ∧ (x - first) % step = 0 ∧
      mapRuns runs x = image + (x - first) := by
  unfold mapRuns
  split
  · exact Or.inl rfl
  · rename_i k _
    have hr : runs.getD k (0, 0, 1, 0) ∈ runs ∨ runs.getD k (0, 0, 1, 0) = (0, 0, 1, 0) := by
      by_cases hk : k < runs.size
      · exact Or.inl (by simp [hk])
      · exact Or.inr (by simp [hk])
    generalize runs.getD k (0, 0, 1, 0) = r at hr ⊢
    obtain ⟨first, last, step, image⟩ := r
    dsimp only
    split
    · rename_i hx
      simp only [Bool.and_eq_true, decide_eq_true_eq, beq_iff_eq] at hx
      obtain ⟨⟨hf, hl⟩, hs⟩ := hx
      rcases hr with hr | hr
      · exact Or.inr ⟨first, last, step, image, hr, hf, hl, hs, rfl⟩
      · cases hr
        exact Or.inl (by omega)
    · exact Or.inl rfl

theorem isLowered_lowerChar {c : Char} (hc : ¬c.toNat < 128) (hi : c ≠ '\u0130') (hs : c ≠ capitalSigma) :
    isLowered (lowerChar c) = true := by
  rcases mapRuns_cases lowerRuns c.toNat with h | ⟨first, last, step, image, hm, hf, hl, hstep, h⟩
  · have he : lowerChar c = c := by rw [lowerChar, if_neg hc, h, Char.ofNat_toNat]
    simp [isLowered, he, hc, hi, hs]
  · rw [lowerChar, if_neg hc, h]
    have hr := List.all_eq_true.mp isLowered_images _ (Array.mem_toList_iff.mpr hm)
    have hd := List.all_eq_true.mp hr (c.toNat - first) (List.mem_range.mpr (by omega))
    simpa [hstep] using hd

/-- **What lowercasing writes is lowercase.** -/
theorem isLowered_of_mem_lowerIn {before after : List Char} {c d : Char} (h : d ∈ lowerIn before c after) :
    isLowered d = true := by
  unfold lowerIn at h
  split at h
  · rename_i hc
    have ha := isLowered_ascii c.toNat hc
    rw [Char.ofNat_toNat] at ha
    rw [List.mem_singleton.mp h]
    exact ha
  · rename_i hc
    split at h
    · simp only [List.mem_cons, List.not_mem_nil, or_false] at h
      rcases h with rfl | rfl
      · decide +kernel
      · decide +kernel
    · rename_i hi
      split at h
      · split at h
        · rw [List.mem_singleton.mp h]
          decide +kernel
        · rw [List.mem_singleton.mp h]
          decide +kernel
      · rename_i hs
        rw [List.mem_singleton.mp h]
        exact isLowered_lowerChar hc (by simpa using hi) (by simpa using hs)

/-! ## Lowercasing twice -/

theorem isLowered_of_mem_lowerFrom {d : Char} : ∀ {before cs : List Char}, d ∈ lowerFrom before cs →
    isLowered d = true
  | _, [], h => by simp [lowerFrom] at h
  | _, c :: rest, h => by
    rw [lowerFrom, List.mem_append] at h
    exact h.elim isLowered_of_mem_lowerIn isLowered_of_mem_lowerFrom

theorem lowerFrom_of_isLowered : ∀ (before : List Char) {cs : List Char}, (∀ c ∈ cs, isLowered c = true) →
    lowerFrom before cs = cs
  | _, [], _ => rfl
  | before, c :: rest, h => by
    rw [lowerFrom, lowerIn_of_isLowered (h c List.mem_cons_self),
      lowerFrom_of_isLowered (c :: before) fun d hd => h d (List.mem_cons_of_mem c hd)]
    rfl

theorem lowerChars_lowerChars (cs : List Char) : lowerChars (lowerChars cs) = lowerChars cs :=
  lowerFrom_of_isLowered [] fun _ hc => isLowered_of_mem_lowerFrom hc

/-- **A text in lower case stays as it is.** -/
theorem lower_lower (s : String) : lower (lower s) = lower s := by
  rw [lower, lower, String.toList_ofList, lowerChars_lowerChars]

/-! ## Lowercasing around blanks -/

theorem seesCased_append_blank (ys : List Char) : ∀ xs : List Char, seesCased (xs ++ ' ' :: ys) = seesCased xs
  | [] => by
    have hi : isCaseIgnorable ' ' = false := by decide +kernel
    have hc : isCased ' ' = false := by decide +kernel
    simp [seesCased, hi, hc]
  | x :: xs => by
    simp only [List.cons_append, seesCased]
    rw [seesCased_append_blank ys xs]

theorem lowerIn_append_blank (before xs ys : List Char) (c : Char) :
    lowerIn before c (xs ++ ' ' :: ys) = lowerIn before c xs := by
  simp only [lowerIn, seesCased_append_blank]

theorem lowerIn_blank_append (xs ys after : List Char) (c : Char) :
    lowerIn (xs ++ ' ' :: ys) c after = lowerIn xs c after := by
  simp only [lowerIn, seesCased_append_blank]

/-- What stands before a blank does not matter behind it. -/
theorem lowerFrom_blank_append (ys : List Char) : ∀ xs cs : List Char, lowerFrom (xs ++ ' ' :: ys) cs = lowerFrom xs cs
  | _, [] => rfl
  | xs, c :: cs => by
    rw [lowerFrom, lowerFrom, lowerIn_blank_append, ← List.cons_append, lowerFrom_blank_append ys (c :: xs) cs]

theorem lowerFrom_append_blank (ys : List Char) : ∀ before xs : List Char,
    lowerFrom before (xs ++ ' ' :: ys) = lowerFrom before xs ++ ' ' :: lowerChars ys
  | before, [] => by
    have hb : lowerIn before ' ' ys = [' '] := lowerIn_of_isLowered (by decide +kernel) before ys
    simp only [List.nil_append, lowerFrom, hb, List.singleton_append, lowerChars]
    rw [← lowerFrom_blank_append before [] ys, List.nil_append]
  | before, x :: xs => by
    rw [List.cons_append, lowerFrom, lowerFrom, lowerIn_append_blank, lowerFrom_append_blank ys (x :: before) xs,
      List.append_assoc]

/-- **Texts on both sides of a blank are lowercased one by one.** -/
theorem lowerChars_append_blank (xs ys : List Char) :
    lowerChars (xs ++ ' ' :: ys) = lowerChars xs ++ ' ' :: lowerChars ys := lowerFrom_append_blank ys [] xs

/-! ## Empty texts -/

theorem lowerIn_ne_nil (before : List Char) (c : Char) (after : List Char) : lowerIn before c after ≠ [] := by
  unfold lowerIn
  repeat' split
  all_goals simp

/-- Only the empty text is empty in lower case. -/
@[simp] theorem lower_eq_empty {s : String} : lower s = "" ↔ s = "" := by
  constructor
  · intro h
    have hchars : lowerChars s.toList = [] := by simpa [lower] using congrArg String.toList h
    cases hs : s.toList with
    | nil => exact String.toList_injective (by simpa using hs)
    | cons c rest =>
      rw [hs] at hchars
      exact absurd (List.append_eq_nil_iff.mp hchars).1 (lowerIn_ne_nil _ _ _)
  · rintro rfl
    rfl

/-! ## Blanks and signs -/

/-- A blank, or a character of ASCII that is no letter. -/
def isSign (c : Char) : Bool := isBlank c || (decide (c.toNat < 128) && !c.isAlpha)

theorem toLower_of_isSign : ∀ n < 128, isSign (Char.ofNat n).toLower = true →
    (Char.ofNat n).toLower = Char.ofNat n := by decide +kernel

/-- The images of the runs are no signs. -/
theorem isSign_images : lowerRuns.toList.all (fun (first, last, step, image) =>
    (List.range (last - first + 1)).all fun i => i % step != 0 || !isSign (Char.ofNat (image + i))) = true := by
  decide +kernel

/-- A sign is written for itself only. -/
theorem eq_of_mem_lowerIn {before after : List Char} {c d : Char} (h : d ∈ lowerIn before c after)
    (hd : isSign d = true) : d = c := by
  unfold lowerIn at h
  split at h
  · rename_i hc
    have hsign := toLower_of_isSign c.toNat hc
    rw [Char.ofNat_toNat] at hsign
    cases List.mem_singleton.mp h
    exact hsign hd
  · rename_i hc
    split at h
    · simp only [List.mem_cons, List.not_mem_nil, or_false] at h
      rcases h with rfl | rfl <;> exact absurd hd (by decide +kernel)
    · split at h
      · split at h <;> cases List.mem_singleton.mp h <;> exact absurd hd (by decide +kernel)
      · cases List.mem_singleton.mp h
        rcases mapRuns_cases lowerRuns c.toNat with hmap | ⟨first, last, step, image, hm, hf, hl, hstep, hmap⟩
        · rw [lowerChar, if_neg hc, hmap, Char.ofNat_toNat]
        · rw [lowerChar, if_neg hc, hmap] at hd
          have hr := List.all_eq_true.mp isSign_images _ (Array.mem_toList_iff.mpr hm)
          have hnone := List.all_eq_true.mp hr (c.toNat - first) (List.mem_range.mpr (by omega))
          simp [hstep, hd] at hnone

theorem mem_of_mem_lowerFrom {d : Char} (hd : isSign d = true) : ∀ {before cs : List Char}, d ∈ lowerFrom before cs →
    d ∈ cs
  | _, [], h => by simp [lowerFrom] at h
  | _, c :: rest, h => by
    rw [lowerFrom, List.mem_append] at h
    rcases h with h | h
    · exact eq_of_mem_lowerIn h hd ▸ List.mem_cons_self
    · exact List.mem_cons_of_mem c (mem_of_mem_lowerFrom hd h)

/-- **Signs of a text in lower case were there before.** -/
theorem mem_of_mem_lowerChars {d : Char} {cs : List Char} (hd : isSign d = true) (h : d ∈ lowerChars cs) : d ∈ cs :=
  mem_of_mem_lowerFrom hd h

end Shelfmark.Text
