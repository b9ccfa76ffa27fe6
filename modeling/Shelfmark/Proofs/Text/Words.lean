import Shelfmark.Text.Words

/-!
# Words and their beginnings

- `splitOn` cuts a text at the separators: a separator between two texts parts their pieces (`splitOn_append_sep`),
  and a piece of a text begins a piece of every longer text (`exists_prefix_splitOn`);
- `distinct` keeps the members, as they first stand, and drops repetitions (`mem_distinct`, `firsts_freshFrom`,
  `nodup_distinct`);
- the tokens of a text are the beginnings of its words (`mem_prefixTokens`).
-/

namespace Shelfmark.Text

/-! ## Pieces between separators -/

section Pieces

variable {p : Char → Bool} {w piece xs : List Char} {x : Char}

/-- The piece that was begun is the last one. -/
theorem mem_splitFrom_nil : w ∈ splitFrom p piece [] ↔ piece ≠ [] ∧ w = piece.reverse := by
  cases piece <;> simp [splitFrom]

/-- A separator ends the piece that was begun. -/
theorem mem_splitFrom_sep (hx : p x = true) :
    w ∈ splitFrom p piece (x :: xs) ↔ (piece ≠ [] ∧ w = piece.reverse) ∨ w ∈ splitFrom p [] xs := by
  cases piece <;> simp [splitFrom, hx]

/-- Any other character goes on with the piece that was begun. -/
theorem splitFrom_of_not_sep (hx : ¬p x = true) : splitFrom p piece (x :: xs) = splitFrom p (x :: piece) xs := by
  simp [splitFrom, hx]

/-- A separator ends the piece that was begun; the rest is cut on its own. -/
theorem splitFrom_append_sep {c : Char} (hc : p c = true) (ys : List Char) : ∀ piece xs : List Char,
    splitFrom p piece (xs ++ c :: ys) = splitFrom p piece xs ++ splitFrom p [] ys
  | piece, [] => by
    simp only [List.nil_append, splitFrom, hc, if_true]
    split <;> rfl
  | piece, x :: xs => by
    simp only [List.cons_append, splitFrom]
    split
    · split
      · exact splitFrom_append_sep hc ys [] xs
      · rw [splitFrom_append_sep hc ys [] xs]; rfl
    · exact splitFrom_append_sep hc ys (x :: piece) xs

theorem splitOn_append_sep {c : Char} (hc : p c = true) (xs ys : List Char) :
    splitOn p (xs ++ c :: ys) = splitOn p xs ++ splitOn p ys := splitFrom_append_sep hc ys [] xs

/-- A text without separators is one piece. -/
theorem splitFrom_of_noSep : ∀ {piece xs : List Char}, piece.reverse ++ xs ≠ [] → (∀ c ∈ xs, p c = false) →
    splitFrom p piece xs = [piece.reverse ++ xs]
  | piece, [], hne, _ => by
    have hpiece : piece.isEmpty = false := by simpa using hne
    simp [splitFrom, hpiece]
  | piece, x :: xs, _, h => by
    have hx : ¬p x = true := by simp [h x List.mem_cons_self]
    rw [splitFrom_of_not_sep hx, splitFrom_of_noSep (by simp) fun c hc => h c (List.mem_cons_of_mem x hc)]
    simp

theorem splitOn_of_noSep (hne : xs ≠ []) (h : ∀ c ∈ xs, p c = false) : splitOn p xs = [xs] :=
  splitFrom_of_noSep hne h

/-- A piece that was begun begins one of the pieces. -/
theorem exists_prefix_piece : ∀ {piece : List Char} (xs : List Char), piece ≠ [] →
    ∃ w ∈ splitFrom p piece xs, piece.reverse <+: w
  | piece, [], h => ⟨piece.reverse, mem_splitFrom_nil.mpr ⟨h, rfl⟩, List.prefix_rfl⟩
  | piece, x :: xs, h => by
    by_cases hx : p x = true
    · exact ⟨piece.reverse, (mem_splitFrom_sep hx).mpr (Or.inl ⟨h, rfl⟩), List.prefix_rfl⟩
    · obtain ⟨w, hw, hp⟩ := exists_prefix_piece xs (List.cons_ne_nil x piece)
      refine ⟨w, by rwa [splitFrom_of_not_sep hx], ?_⟩
      rw [List.reverse_cons] at hp
      exact (List.prefix_append _ _).trans hp

/-- Every piece begins a piece of every longer text. -/
theorem exists_prefix_splitFrom (ys : List Char) : ∀ {piece xs : List Char},
    w ∈ splitFrom p piece xs → ∃ w' ∈ splitFrom p piece (xs ++ ys), w <+: w'
  | piece, [], h => by
    obtain ⟨hne, rfl⟩ := mem_splitFrom_nil.mp h
    exact exists_prefix_piece ys hne
  | piece, x :: xs, h => by
    by_cases hx : p x = true
    · rcases (mem_splitFrom_sep hx).mp h with hw | h
      · exact ⟨w, (mem_splitFrom_sep hx).mpr (Or.inl hw), List.prefix_rfl⟩
      · obtain ⟨w', hw', hpre⟩ := exists_prefix_splitFrom ys h
        exact ⟨w', (mem_splitFrom_sep hx).mpr (Or.inr hw'), hpre⟩
    · rw [splitFrom_of_not_sep hx] at h
      obtain ⟨w', hw', hpre⟩ := exists_prefix_splitFrom ys h
      exact ⟨w', by rwa [List.cons_append, splitFrom_of_not_sep hx], hpre⟩

theorem exists_prefix_splitOn (h : w ∈ splitOn p xs) (ys : List Char) : ∃ w' ∈ splitOn p (xs ++ ys), w <+: w' :=
  exists_prefix_splitFrom ys h

/-- No piece is empty. -/
theorem ne_nil_of_mem_splitFrom : ∀ {piece xs : List Char}, w ∈ splitFrom p piece xs → w ≠ []
  | piece, [], h => by
    obtain ⟨hne, rfl⟩ := mem_splitFrom_nil.mp h
    simpa using hne
  | piece, x :: xs, h => by
    by_cases hx : p x = true
    · rcases (mem_splitFrom_sep hx).mp h with ⟨hne, rfl⟩ | h
      · simpa using hne
      · exact ne_nil_of_mem_splitFrom h
    · rw [splitFrom_of_not_sep hx] at h
      exact ne_nil_of_mem_splitFrom h

end Pieces

/-! ## Lists without repetitions -/

theorem mem_freshFrom {x : String} : ∀ {seen xs : List String}, x ∈ freshFrom seen xs ↔ x ∈ xs ∧ x ∉ seen
  | seen, [] => by simp [freshFrom]
  | seen, y :: rest => by
    simp only [freshFrom, List.contains_eq_mem, decide_eq_true_eq]
    split
    · rename_i hy
      rw [mem_freshFrom, List.mem_cons]
      constructor
      · rintro ⟨hx, hs⟩
        exact ⟨Or.inr hx, hs⟩
      · rintro ⟨rfl | hx, hs⟩
        · exact absurd hy hs
        · exact ⟨hx, hs⟩
    · rename_i hy
      rw [List.mem_cons, mem_freshFrom, List.mem_cons, List.mem_cons, not_or]
      constructor
      · rintro (rfl | ⟨hx, _, hs⟩)
        · exact ⟨Or.inl rfl, hy⟩
        · exact ⟨Or.inr hx, hs⟩
      · rintro ⟨rfl | hx, hs⟩
        · exact Or.inl rfl
        · by_cases hxy : x = y
          · exact Or.inl hxy
          · exact Or.inr ⟨hx, hxy, hs⟩

theorem nodup_freshFrom : ∀ seen xs : List String, (freshFrom seen xs).Nodup
  | _, [] => List.nodup_nil
  | seen, y :: rest => by
    unfold freshFrom
    split
    · exact nodup_freshFrom seen rest
    · refine List.nodup_cons.mpr ⟨fun h => ?_, nodup_freshFrom (y :: seen) rest⟩
      exact (mem_freshFrom.mp h).2 List.mem_cons_self

/-- In front of the place where a member of a list without repetitions first stands there is no later member. -/
theorem firsts_freshFrom : ∀ seen xs : List String, (freshFrom seen xs).Pairwise fun a b =>
    ∃ before behind, xs = before ++ a :: behind ∧ b ∉ before
  | _, [] => List.Pairwise.nil
  | seen, x :: rest => by
    unfold freshFrom
    split
    · rename_i hx
      have hx : x ∈ seen := by simpa using hx
      refine (firsts_freshFrom seen rest).imp_of_mem fun {a b} _ hb hab => ?_
      obtain ⟨before, behind, rfl, hnot⟩ := hab
      have hbx : b ≠ x := fun he => (mem_freshFrom.mp hb).2 (he ▸ hx)
      exact ⟨x :: before, behind, rfl, by simp [hbx, hnot]⟩
    · refine List.pairwise_cons.mpr ⟨fun b _ => ⟨[], rest, rfl, by simp⟩, ?_⟩
      refine (firsts_freshFrom (x :: seen) rest).imp_of_mem fun {a b} _ hb hab => ?_
      obtain ⟨before, behind, rfl, hnot⟩ := hab
      have hbx : b ≠ x := fun he => (mem_freshFrom.mp hb).2 (he ▸ List.mem_cons_self)
      exact ⟨x :: before, behind, rfl, by simp [hbx, hnot]⟩

@[simp] theorem mem_distinct {x : String} {xs : List String} : x ∈ distinct xs ↔ x ∈ xs := by
  simp [distinct, mem_freshFrom]

theorem nodup_distinct (xs : List String) : (distinct xs).Nodup := nodup_freshFrom [] xs

@[simp] theorem distinct_eq_nil {xs : List String} : distinct xs = [] ↔ xs = [] := by
  simp only [List.eq_nil_iff_forall_not_mem, mem_distinct]

/-! ## Words and tokens -/

theorem mem_beginnings {u : List Char} : ∀ {w : List Char}, u ∈ beginnings w ↔ u ≠ [] ∧ u <+: w
  | [] => by
    simp only [beginnings, List.not_mem_nil, List.prefix_nil, false_iff]
    exact fun h => h.1 h.2
  | c :: rest => by
    simp only [beginnings, List.mem_cons, List.mem_map, mem_beginnings]
    constructor
    · rintro (rfl | ⟨v, ⟨_, hv⟩, rfl⟩)
      · exact ⟨List.cons_ne_nil _ _, by simp⟩
      · exact ⟨List.cons_ne_nil _ _, List.cons_prefix_cons.mpr ⟨rfl, hv⟩⟩
    · rintro ⟨hne, hu⟩
      cases u with
      | nil => exact absurd rfl hne
      | cons d v =>
        obtain ⟨rfl, hv⟩ := List.cons_prefix_cons.mp hu
        by_cases hv' : v = []
        · exact Or.inl (by rw [hv'])
        · exact Or.inr ⟨v, ⟨hv', hv⟩, rfl⟩

theorem startsWith_iff {text part : String} : startsWith text part = true ↔ part.toList <+: text.toList := by
  simp [startsWith]

/-- A word is not empty. -/
theorem ne_empty_of_mem_indexWords {w s : String} (h : w ∈ indexWords s) : w ≠ "" := by
  obtain ⟨cs, hcs, rfl⟩ := List.mem_map.mp h
  intro he
  exact ne_nil_of_mem_splitFrom hcs (by simpa using congrArg String.toList he)

/-- The beginnings of a word, the shortest first, without the empty one. -/
def beginningsOf (w : String) : List String := (beginnings w.toList).map String.ofList

theorem mem_beginningsOf {t w : String} : t ∈ beginningsOf w ↔ t ≠ "" ∧ startsWith w t = true := by
  simp only [beginningsOf, List.mem_map, mem_beginnings, startsWith_iff]
  constructor
  · rintro ⟨cs, ⟨hne, hcs⟩, rfl⟩
    exact ⟨by simpa using hne, by simpa using hcs⟩
  · rintro ⟨hne, ht⟩
    exact ⟨t.toList, ⟨by simpa using hne, ht⟩, String.ofList_toList⟩

theorem prefixTokens_eq (s : String) : prefixTokens s = distinct ((indexWords s).flatMap beginningsOf) := by
  simp [prefixTokens, indexWords, beginningsOf, List.flatMap_map]

/-- **The tokens of a text are the beginnings of its words.** -/
theorem mem_prefixTokens {t s : String} :
    t ∈ prefixTokens s ↔ t ≠ "" ∧ ∃ w ∈ indexWords s, startsWith w t = true := by
  simp only [prefixTokens_eq, mem_distinct, List.mem_flatMap, mem_beginningsOf]
  constructor
  · rintro ⟨w, hw, hne, ht⟩
    exact ⟨hne, w, hw, ht⟩
  · rintro ⟨hne, w, hw, ht⟩
    exact ⟨w, hw, hne, ht⟩

end Shelfmark.Text
