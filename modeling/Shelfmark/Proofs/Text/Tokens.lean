import Shelfmark.Proofs.Order.Stable
import Shelfmark.Proofs.Text.Occurrences

/-!
# Tokens of a text

- The words of a text are its maximal runs of word characters, from left to right (`runs_indexWords`);
- the beginnings of words are listed in order of first appearance, by the first word that has them and then by their
  length (`pairwise_prefixTokens`), so a token stands behind its own beginnings (`pair_sublist_prefixTokens`).

Together with the members of the list these say what the tokens of a text are (`prefixTokens_closure`).
-/

namespace Shelfmark.Text

/-! ## Runs of characters -/

section Runs

variable {p : Char → Bool} {c : Char} {cs : List Char} {runs : List (List Char)}

/-- The maximal runs of characters of a class in a text, from left to right: each of them ends at another character or
with the text, and only other characters stand around them. -/
inductive Runs (p : Char → Bool) : List (List Char) → List Char → Prop
  | none {gap : List Char} (hgap : ∀ c ∈ gap, p c = false) : Runs p [] gap
  | next (gap : List Char) {run rest : List Char} {runs : List (List Char)} (hgap : ∀ c ∈ gap, p c = false)
      (hne : run ≠ []) (hrun : ∀ c ∈ run, p c = true) (hend : ∀ c ∈ rest.head?, p c = false) (h : Runs p runs rest) :
      Runs p (run :: runs) (gap ++ run ++ rest)

/-- Another character in front makes no difference. -/
theorem Runs.cons (hc : p c = false) (h : Runs p runs cs) : Runs p runs (c :: cs) := by
  cases h with
  | none hgap => exact .none (List.forall_mem_cons.mpr ⟨hc, hgap⟩)
  | next gap hgap hne hrun hend h =>
    exact .next (c :: gap) (List.forall_mem_cons.mpr ⟨hc, hgap⟩) hne hrun hend h

/-- The runs of a text that begins with a run. -/
theorem Runs.head {run rest : List Char} (hne : run ≠ []) (hrun : ∀ c ∈ run, p c = true)
    (hend : ∀ c ∈ rest.head?, p c = false) (h : Runs p runs rest) : Runs p (run :: runs) (run ++ rest) :=
  .next [] (by simp) hne hrun hend h

/-- **The pieces between the other characters are the runs**; the piece that was begun is the front of a run. -/
theorem runs_splitFrom : ∀ {piece : List Char} (xs : List Char), (∀ c ∈ piece, p c = true) →
    Runs p (splitFrom (fun c => !p c) piece xs) (piece.reverse ++ xs)
  | [], [], _ => .none (by simp)
  | c :: piece, [], h => .head (by simp) (fun d hd => h d (List.mem_reverse.mp hd)) (by simp) (.none (by simp))
  | piece, x :: xs, h => by
    by_cases hx : p x = true
    · rw [splitFrom_of_not_sep (by simp [hx])]
      simpa using runs_splitFrom xs (List.forall_mem_cons.mpr ⟨hx, h⟩)
    · have hother : p x = false := by simpa using hx
      have hrest : Runs p (splitFrom (fun c => !p c) [] xs) (x :: xs) := (runs_splitFrom xs (by simp)).cons hother
      cases piece with
      | nil => simpa [splitFrom, hother] using hrest
      | cons c piece =>
        have hrun : ∀ d ∈ (c :: piece).reverse, p d = true := fun d hd => h d (List.mem_reverse.mp hd)
        have hruns := Runs.head (by simp) hrun (by simpa using hother) hrest
        simpa [splitFrom, hother] using hruns

end Runs

/-- **The words of a text are its runs of word characters in lower case.** -/
theorem runs_indexWords (s : String) : Runs isWordChar ((indexWords s).map String.toList) (lower s).toList := by
  have hwords : (indexWords s).map String.toList = wordRuns (lowerChars s.toList) := by
    simp [indexWords, Function.comp_def]
  rw [hwords, toList_lower]
  exact runs_splitFrom _ (by simp)

/-! ## Beginnings of words -/

section Beginnings

variable {w t u : String} {ws : List String}

theorem startsWith_trans (h : startsWith w t = true) (h' : startsWith t u = true) : startsWith w u = true :=
  startsWith_iff.mpr ((startsWith_iff.mp h').trans (startsWith_iff.mp h))

/-- A text begins with shorter texts only, and with itself. -/
theorem length_lt_of_startsWith (h : startsWith t u = true) (hne : u ≠ t) : u.length < t.length := by
  have hbegins := startsWith_iff.mp h
  rw [← String.length_toList, ← String.length_toList]
  refine Nat.lt_of_le_of_ne hbegins.length_le fun hlength => hne ?_
  exact String.toList_injective (hbegins.eq_of_length hlength)

theorem pairwise_beginnings : ∀ cs : List Char, (beginnings cs).Pairwise fun a b => a.length < b.length
  | [] => .nil
  | c :: rest => by
    refine List.pairwise_cons.mpr ⟨fun v hv => ?_, List.pairwise_map.mpr ?_⟩
    · obtain ⟨u, hu, rfl⟩ := List.mem_map.mp hv
      simpa [List.length_pos_iff] using (mem_beginnings.mp hu).1
    · exact (pairwise_beginnings rest).imp fun h => by simpa using h

/-- The shorter beginnings of a word come first. -/
theorem pairwise_beginningsOf (w : String) : (beginningsOf w).Pairwise fun t u => t.length < u.length :=
  List.pairwise_map.mpr ((pairwise_beginnings w.toList).imp fun h => by simpa using h)

/-- A beginning of a word that stands in front of another one is shorter. -/
theorem length_lt_of_listed {before back : List String} (h : beginningsOf w = before ++ t :: back) (hnot : u ∉ before)
    (hne : t ≠ u) (hu : u ∈ beginningsOf w) : t.length < u.length := by
  have hback : u ∈ back := by simpa [h, hnot, hne.symm] using hu
  have hlengths := pairwise_beginningsOf w
  rw [h, List.pairwise_append, List.pairwise_cons] at hlengths
  exact hlengths.2.1.1 u hback

end Beginnings

/-! ## Order of appearance -/

section Order

variable {w t u : String} {ws : List String}

/-- The number of the first word that begins with a text. -/
def firstWord (ws : List String) (t : String) : Nat := ws.findIdx fun w => startsWith w t

theorem firstWord_of_startsWith (h : startsWith w t = true) : firstWord (w :: ws) t = 0 := by
  simp [firstWord, List.findIdx_cons, h]

theorem firstWord_of_not_startsWith (h : ¬startsWith w t = true) : firstWord (w :: ws) t = firstWord ws t + 1 := by
  simp [firstWord, List.findIdx_cons, h]

/-- A word that begins with a text begins with the beginnings of the text. -/
theorem firstWord_le (h : startsWith t u = true) : firstWord ws u ≤ firstWord ws t :=
  List.findIdx_le_findIdx fun _ _ hw => startsWith_trans hw h

/-- One text appears before another as the beginning of a word: in an earlier word, or in the same one if it is
shorter. -/
def AppearsBefore (ws : List String) (t u : String) : Prop :=
  firstWord ws t < firstWord ws u ∨ firstWord ws t = firstWord ws u ∧ t.length < u.length

/-- What begins a word does not appear behind what does not. -/
theorem appearsBefore_cons (hw : ¬startsWith w u = true)
    (h : startsWith w t = true ∨ AppearsBefore ws t u) : AppearsBefore (w :: ws) t u := by
  by_cases ht : startsWith w t = true
  · left
    rw [firstWord_of_startsWith ht, firstWord_of_not_startsWith hw]
    exact Nat.succ_pos _
  · rw [AppearsBefore, firstWord_of_not_startsWith ht, firstWord_of_not_startsWith hw]
    exact (h.resolve_left ht).imp (fun h => Nat.succ_lt_succ h) fun h => ⟨congrArg (· + 1) h.1, h.2⟩

/-- Where one beginning of a word stands in front of another that has not been listed yet, it appears before it. -/
theorem appearsBefore_of_listed (hu : u ≠ "") (hne : t ≠ u) : ∀ {ws before behind : List String},
    ws.flatMap beginningsOf = before ++ t :: behind → u ∉ before → AppearsBefore ws t u
  | [], before, behind, h, _ => by simp at h
  | w :: ws, before, behind, h, hnot => by
    rw [List.flatMap_cons] at h
    have hnew : u ∉ beginningsOf w → ¬startsWith w u = true := fun hmem hw => hmem (mem_beginningsOf.mpr ⟨hu, hw⟩)
    rcases List.append_eq_append_iff.mp h with ⟨front, rfl, hrest⟩ | ⟨back, hw, hrest⟩
    · -- it stands among the beginnings of a later word
      obtain ⟨hnotw, hnotfront⟩ := not_or.mp (mt List.mem_append.mpr hnot)
      exact appearsBefore_cons (hnew hnotw) (Or.inr (appearsBefore_of_listed hu hne hrest hnotfront))
    · cases back with
      | nil =>
        obtain rfl : beginningsOf w = before := by simpa using hw
        have hlater : ws.flatMap beginningsOf = [] ++ t :: behind := hrest.symm
        exact appearsBefore_cons (hnew hnot) (Or.inr (appearsBefore_of_listed hu hne hlater List.not_mem_nil))
      | cons t' back =>
        -- it is a beginning of the first word
        obtain rfl : t = t' := (List.cons.inj hrest).1
        have ht : startsWith w t = true := (mem_beginningsOf.mp (by simp [hw])).2
        by_cases hwu : startsWith w u = true
        · refine Or.inr ⟨?_, length_lt_of_listed hw hnot hne (mem_beginningsOf.mpr ⟨hu, hwu⟩)⟩
          rw [firstWord_of_startsWith ht, firstWord_of_startsWith hwu]
        · exact appearsBefore_cons hwu (Or.inl ht)

theorem nodup_prefixTokens (s : String) : (prefixTokens s).Nodup := nodup_distinct _

/-- **The tokens are listed in order of first appearance.** -/
theorem pairwise_prefixTokens (s : String) : (prefixTokens s).Pairwise (AppearsBefore (indexWords s)) := by
  have hfirsts := firsts_freshFrom [] ((indexWords s).flatMap beginningsOf)
  rw [← distinct, ← prefixTokens_eq] at hfirsts
  refine (hfirsts.and (nodup_prefixTokens s)).imp_of_mem fun {t u} _ hu htu => ?_
  obtain ⟨⟨before, behind, hlisted, hnot⟩, hne⟩ := htu
  exact appearsBefore_of_listed (mem_prefixTokens.mp hu).1 hne hlisted hnot

/-- **A token stands behind its own beginnings.** -/
theorem pair_sublist_prefixTokens {s : String} (ht : t ∈ prefixTokens s) (hu : u ≠ "") (hne : u ≠ t)
    (hstarts : startsWith t u = true) : [u, t].Sublist (prefixTokens s) := by
  obtain ⟨_, w, hw, hwt⟩ := mem_prefixTokens.mp ht
  have humem : u ∈ prefixTokens s := mem_prefixTokens.mpr ⟨hu, w, hw, startsWith_trans hwt hstarts⟩
  refine (pair_sublist_or hne humem ht).resolve_right fun hpair => ?_
  have hbefore : AppearsBefore (indexWords s) t u := by
    simpa using (pairwise_prefixTokens s).sublist hpair
  have hfirst : firstWord (indexWords s) u ≤ firstWord (indexWords s) t := firstWord_le hstarts
  have hlength := length_lt_of_startsWith hstarts hne
  rcases hbefore with h | ⟨_, h⟩ <;> omega

end Order

/-! ## The tokens -/

/-- Texts that are joined by a blank have the tokens of both. -/
theorem mem_prefixTokens_append_blank {s s' t : String} :
    t ∈ prefixTokens (s ++ " " ++ s') ↔ t ∈ prefixTokens s ∨ t ∈ prefixTokens s' := by
  simp only [mem_prefixTokens, indexWords_append_blank, List.mem_append, or_and_right, exists_or, and_or_left]

/-- **The tokens of a text are the non-empty beginnings of its words**, each of them once, in order of first appearance
and behind its own beginnings.  The words are the maximal runs of word characters of the text in lower case.  Texts that
are joined by a blank have the tokens of both. -/
theorem prefixTokens_closure (s : String) :
    Runs isWordChar ((indexWords s).map String.toList) (lower s).toList ∧
      (prefixTokens s).Nodup ∧
      (∀ t, t ∈ prefixTokens s ↔ t ≠ "" ∧ ∃ w ∈ indexWords s, startsWith w t = true) ∧
      (prefixTokens s).Pairwise (AppearsBefore (indexWords s)) ∧
      (∀ t ∈ prefixTokens s, ∀ u, u ≠ "" → u ≠ t → startsWith t u = true → [u, t].Sublist (prefixTokens s)) ∧
      ∀ s' t, t ∈ prefixTokens (s ++ " " ++ s') ↔ t ∈ prefixTokens s ∨ t ∈ prefixTokens s' :=
  ⟨runs_indexWords s, nodup_prefixTokens s, fun _ => mem_prefixTokens, pairwise_prefixTokens s,
    fun _ ht _ hu hne hstarts => pair_sublist_prefixTokens ht hu hne hstarts, fun _ _ => mem_prefixTokens_append_blank⟩

/-- A sigma at the end of a word is another letter in lower case than one inside a word. -/
theorem prefixTokens_closure_sample :
    prefixTokens "ΟΔΟΣ, Οδοσα" = ["ο", "οδ", "οδο", "οδος", "οδοσ", "οδοσα"] ∧
      "οδοσα" ∈ prefixTokens "ΟΔΟΣ, Οδοσα" ∧ "οδοσ" ≠ "" ∧ "οδοσ" ≠ "οδοσα" ∧ startsWith "οδοσα" "οδοσ" = true ∧
      ["οδοσ", "οδοσα"].Sublist (prefixTokens "ΟΔΟΣ, Οδοσα") ∧
      ∀ t, t ∈ prefixTokens ("ΟΔΟΣ, Οδοσα" ++ " " ++ "ΟΔΟΣ") ↔
        t ∈ prefixTokens "ΟΔΟΣ, Οδοσα" ∨ t ∈ prefixTokens "ΟΔΟΣ" := by
  have htokens : prefixTokens "ΟΔΟΣ, Οδοσα" = ["ο", "οδ", "οδο", "οδος", "οδοσ", "οδοσα"] := by decide +kernel
  have hmem : "οδοσα" ∈ prefixTokens "ΟΔΟΣ, Οδοσα" := by simp [htokens]
  have hstarts : startsWith "οδοσα" "οδοσ" = true := by decide +kernel
  obtain ⟨_, _, _, _, hpairs, hjoined⟩ := prefixTokens_closure "ΟΔΟΣ, Οδοσα"
  exact ⟨htokens, hmem, by decide, by decide, hstarts, hpairs _ hmem _ (by decide) (by decide) hstarts, hjoined _⟩

end Shelfmark.Text
