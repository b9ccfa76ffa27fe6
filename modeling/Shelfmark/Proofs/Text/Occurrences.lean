import Shelfmark.Proofs.Text.Lowercase
import Shelfmark.Proofs.Text.Words

/-!
# Occurrences of terms

- A text occurs in another if it is a part of it (`contains_iff`);
- the words of texts joined by blanks are the words of the texts (`indexWords_intercalate`);
- a word of a term begins a word of every text in which the term stands at the beginning of a word
  (`exists_prefix_of_beginsIn`) or in which it occurs with a word behind a separator (`exists_prefix_of_hasInnerWord`).
-/

namespace Shelfmark.Text

/-! ## Parts of texts -/

theorem occursIn_iff {part : List Char} : ∀ {text : List Char}, occursIn part text = true ↔ part <:+: text
  | [] => by simp [occursIn]
  | c :: rest => by
    rw [occursIn, Bool.or_eq_true, List.isPrefixOf_iff_prefix, occursIn_iff, List.infix_cons_iff]

theorem contains_iff {text part : String} : contains text part = true ↔ part.toList <:+: text.toList := occursIn_iff

/-- What is no blank stays when a text is trimmed. -/
theorem mem_trim {c : Char} {cs : List Char} (h : c ∈ cs) (hc : isBlank c = false) : c ∈ trim cs := by
  have hdrop : ∀ ds : List Char, c ∈ ds → c ∈ ds.dropWhile isBlank := by
    intro ds hd
    rw [← List.takeWhile_append_dropWhile (p := isBlank) (l := ds), List.mem_append] at hd
    refine hd.resolve_left fun ht => ?_
    rw [List.all_eq_true.mp List.all_takeWhile c ht] at hc
    cases hc
  exact List.mem_reverse.mpr (hdrop _ (List.mem_reverse.mpr (hdrop _ h)))

/-- A text without blanks has none to be trimmed. -/
theorem trim_of_noBlank {cs : List Char} (h : ∀ c ∈ cs, isBlank c = false) : trim cs = cs := by
  have hdrop : ∀ ds : List Char, (∀ c ∈ ds, isBlank c = false) → ds.dropWhile isBlank = ds := by
    intro ds hds
    cases ds with
    | nil => rfl
    | cons c ds => exact List.dropWhile_cons_of_neg (by simp [hds c List.mem_cons_self])
  rw [trim, hdrop cs h, hdrop _ fun c hc => h c (List.mem_reverse.mp hc), List.reverse_reverse]

/-! ## Words of joined texts -/

theorem isWordChar_blank : isWordChar ' ' = false := rfl

theorem toList_lower (s : String) : (lower s).toList = lowerChars s.toList := by simp [lower]

/-- A blank parts the words before it from those behind it. -/
theorem indexWords_append_blank (s t : String) : indexWords (s ++ " " ++ t) = indexWords s ++ indexWords t := by
  have hs : (!isWordChar ' ') = true := by rw [isWordChar_blank]; rfl
  have ht : (s ++ " " ++ t).toList = s.toList ++ ' ' :: t.toList := by simp
  rw [indexWords, ht, lowerChars_append_blank, wordRuns, splitOn_append_sep hs, List.map_append]
  rfl

theorem indexWords_intercalate : ∀ ss : List String, indexWords (" ".intercalate ss) = ss.flatMap indexWords
  | [] => rfl
  | [s] => by simp
  | s :: t :: ss => by
    rw [String.intercalate_cons_cons, indexWords_append_blank, indexWords_intercalate (t :: ss), ← List.flatMap_cons]

/-! ## Terms at the beginning of words -/

section Begins

variable {p : Char → Bool} {part text : List Char}

/-- A part stands in a text at the beginning or behind a separator. -/
def BeginsIn (p : Char → Bool) (part text : List Char) : Prop :=
  ∃ before behind, text = before ++ part ++ behind ∧ ∀ c, before.getLast? = some c → p c = true

/-- A part holds a character of a word behind a separator. -/
def HasInnerWord (p : Char → Bool) (part : List Char) : Prop :=
  ∃ front c d rest, part = front ++ c :: d :: rest ∧ p c = true ∧ p d = false

theorem beginsIn_of_prefix (h : part <+: text) : BeginsIn p part text := by
  obtain ⟨behind, rfl⟩ := h
  exact ⟨[], behind, by simp, by simp⟩

/-- The pieces of a part begin pieces of the text if the part stands at the beginning of a piece. -/
theorem exists_prefix_of_beginsIn (h : BeginsIn p part text) {w : List Char} (hw : w ∈ splitOn p part) :
    ∃ w' ∈ splitOn p text, w <+: w' := by
  obtain ⟨before, behind, rfl, hb⟩ := h
  obtain ⟨w', hw', hpre⟩ := exists_prefix_splitOn hw behind
  rcases List.eq_nil_or_concat before with rfl | ⟨front, c, rfl⟩
  · exact ⟨w', by simpa using hw', hpre⟩
  · rw [List.concat_eq_append] at hb ⊢
    have hc : p c = true := hb c (by simp)
    refine ⟨w', ?_, hpre⟩
    rw [List.append_assoc, List.append_assoc, List.singleton_append, splitOn_append_sep hc]
    exact List.mem_append_right _ hw'

/-- A word behind a separator begins a piece wherever the part occurs. -/
theorem exists_prefix_of_hasInnerWord (h : HasInnerWord p part) (hp : part <:+: text) :
    ∃ w ∈ splitOn p part, ∃ w' ∈ splitOn p text, w <+: w' := by
  obtain ⟨front, c, d, rest, rfl, hc, hd⟩ := h
  obtain ⟨before, behind, rfl⟩ := hp
  obtain ⟨w, hw, _⟩ := exists_prefix_piece (p := p) rest (List.cons_ne_nil d [])
  have hw : w ∈ splitOn p (d :: rest) := by simpa [splitOn, splitFrom, hd] using hw
  have hb : BeginsIn p (d :: rest) (before ++ (front ++ c :: d :: rest) ++ behind) := by
    refine ⟨before ++ front ++ [c], behind, by simp, fun c' hc' => ?_⟩
    simp only [List.getLast?_concat, Option.some.injEq] at hc'
    exact hc' ▸ hc
  refine ⟨w, ?_, exists_prefix_of_beginsIn hb hw⟩
  rw [splitOn_append_sep hc]
  exact List.mem_append_right _ hw

/-- A part that begins with a separator and has a piece holds the piece behind a separator. -/
theorem hasInnerWord_of_separator : ∀ {c : Char} {rest : List Char}, p c = true → splitOn p (c :: rest) ≠ [] →
    HasInnerWord p (c :: rest)
  | c, [], hc, h => by simp [splitOn, splitFrom, hc] at h
  | c, d :: rest, hc, h => by
    by_cases hd : p d = true
    · have hrest : splitOn p (d :: rest) ≠ [] := by simpa [splitOn, splitFrom, hc] using h
      obtain ⟨front, c', d', rest', he, hc', hd'⟩ := hasInnerWord_of_separator hd hrest
      exact ⟨c :: front, c', d', rest', by rw [he]; rfl, hc', hd'⟩
    · exact ⟨[], c, d, rest, rfl, hc, by simpa using hd⟩

end Begins

end Shelfmark.Text
