import Mathlib.Data.List.TakeWhile
import Shelfmark.Query.Terms

/-!
# Tokens in a text

- A token at the front of a text is taken as a whole (`pieces_token`), and characters at which no token begins are taken
  one by one (`pieces_chars`);
- a pattern is recognized where two slashes with something between them stand, together with all the flags behind them
  (`patternToken_eq_some`, `patternToken_slash`);
- a phrase is recognized with the sign in front of it (`phraseToken_phrase`), and nowhere else than at a quote
  (`phraseToken_eq_none`).
-/

namespace Shelfmark.Query

/-! ## Scanning -/

section Scanning

variable {α : Type} {r : Recognizer α} {cs rest : List Char} {c : Char} {a : α}

/-- The recognizer does not look at the character before the place. -/
def LooksAhead (r : Recognizer α) : Prop := ∀ before before' cs, r before cs = r before' cs

variable (hr : LooksAhead r)
include hr

/-- Where scanning goes on it does so as at the beginning of a text. -/
theorem piecesFrom_eq : ∀ (before : Option Char) (skip : Nat) (cs : List Char),
    piecesFrom r before skip cs = pieces r (cs.drop skip)
  | _, 0, [] | _, _ + 1, [] => by simp [pieces, piecesFrom]
  | before, skip + 1, c :: rest => piecesFrom_eq (some c) skip rest
  | before, 0, c :: rest => by
    simp only [pieces, piecesFrom, List.drop_zero, hr before none]

theorem pieces_of_none (h : r none (c :: rest) = none) : pieces r (c :: rest) = .char c :: pieces r rest := by
  have htail := piecesFrom_eq hr (some c) 0 rest
  rw [List.drop_zero] at htail
  rw [pieces, piecesFrom]
  simp only [h, htail]

/-- **A token at the front of a text is taken as a whole.** -/
theorem pieces_token (hne : cs ≠ []) (h : r none (cs ++ rest) = some (a, cs.length)) :
    pieces r (cs ++ rest) = .token a :: pieces r rest := by
  cases cs with
  | nil => exact absurd rfl hne
  | cons c cs =>
    have htail := piecesFrom_eq hr (some c) cs.length (cs ++ rest)
    rw [List.drop_left] at htail
    rw [List.cons_append] at h ⊢
    rw [pieces, piecesFrom]
    simp only [h, List.length_cons, Nat.add_sub_cancel, htail]

/-- **Characters at which no token begins are taken one by one.** -/
theorem pieces_chars (h : ∀ c behind, c :: behind <:+ cs → r none (c :: (behind ++ rest)) = none) :
    pieces r (cs ++ rest) = cs.map .char ++ pieces r rest := by
  induction cs with
  | nil => rfl
  | cons c cs ih =>
    have hfront : r none (c :: (cs ++ rest)) = none := h c cs List.suffix_rfl
    have htail := ih fun d behind hd => h d behind (hd.trans (List.suffix_cons c cs))
    rw [List.cons_append, pieces_of_none hr hfront, htail]
    rfl

end Scanning

/-! ## Tokens and fillers -/

section Pieces

variable {α : Type} {filler : List Char} {ps qs : List (Piece α)}

theorem tokensOf_append : tokensOf (ps ++ qs) = tokensOf ps ++ tokensOf qs := List.filterMap_append

theorem fill_append : fill filler (ps ++ qs) = fill filler ps ++ fill filler qs := List.flatMap_append

@[simp] theorem tokensOf_chars : ∀ cs : List Char, tokensOf (cs.map (.char : Char → Piece α)) = []
  | [] => rfl
  | _ :: rest => tokensOf_chars rest

@[simp] theorem fill_chars : ∀ cs : List Char, fill filler (cs.map (.char : Char → Piece α)) = cs
  | [] => rfl
  | c :: rest => congrArg (c :: ·) (fill_chars rest)

end Pieces

/-! ## Patterns between slashes -/

section Patterns

variable {before : Option Char} {s f cs rest : List Char} {c : Char} {n : Nat}

theorem patternToken_of_ne (hc : c ≠ '/') : patternToken before (c :: rest) = none := by
  unfold patternToken
  split
  · rename_i hcons
    exact absurd (List.cons.inj hcons).1 hc
  · rfl

theorem looksAhead_patternToken : LooksAhead patternToken
  | _, _, [] => rfl
  | _, _, c :: rest => by
    by_cases hc : c = '/'
    · subst hc
      rfl
    · rw [patternToken_of_ne hc, patternToken_of_ne hc]

/-- What stands between the slashes and behind them is taken, as long as it goes on with flags. -/
theorem patternToken_token (hs : s ≠ []) (hslash : '/' ∉ s) (hf : ∀ c ∈ f, isFlag c = true)
    (hrest : ∀ c ∈ rest.head?, isFlag c = false) :
    patternToken before ('/' :: s ++ '/' :: f ++ rest) = some ((s, f), s.length + f.length + 2) := by
  have hinside : ∀ c ∈ s, (c != '/') = true := by
    intro c hc
    rw [bne_iff_ne]
    rintro rfl
    exact hslash hc
  have hsource : (s ++ '/' :: (f ++ rest)).takeWhile (· != '/') = s := by
    rw [List.takeWhile_append_of_pos hinside, List.takeWhile_cons_of_neg (by simp), List.append_nil]
  have hbehind : (s ++ '/' :: (f ++ rest)).dropWhile (· != '/') = '/' :: (f ++ rest) := by
    rw [List.dropWhile_append_of_pos hinside, List.dropWhile_cons_of_neg (by simp)]
  have hflags : (f ++ rest).takeWhile isFlag = f := by
    rw [List.takeWhile_append_of_pos hf]
    cases rest with
    | nil => simp
    | cons d rest => rw [List.takeWhile_cons_of_neg (by simp [hrest d rfl]), List.append_nil]
  have hne : s.isEmpty = false := by simpa using hs
  simp only [List.cons_append, List.append_assoc, patternToken, hsource, hbehind, hflags, hne, Bool.false_eq_true,
    if_false]

/-- **A pattern is recognized at a slash unless another one follows at once or none at all.** -/
theorem patternToken_slash : patternToken before ('/' :: rest) = none ↔ rest.head? = some '/' ∨ '/' ∉ rest := by
  have hparts : rest.takeWhile (· != '/') ++ rest.dropWhile (· != '/') = rest := List.takeWhile_append_dropWhile
  simp only [patternToken]
  cases hd : rest.dropWhile (· != '/') with
  | nil =>
    have hall : '/' ∉ rest := by
      intro hmem
      have hne := List.dropWhile_eq_nil_iff.mp hd '/' hmem
      exact absurd hne (by simp)
    simp [hall]
  | cons d behind =>
    have hslash : d = '/' := by
      have hhead := List.head?_dropWhile_not (· != '/') rest
      rw [hd] at hhead
      simpa using hhead
    subst hslash
    have hmem : '/' ∈ rest := hparts ▸ List.mem_append_right _ (hd ▸ List.mem_cons_self)
    cases ht : rest.takeWhile (· != '/') with
    | nil =>
      have hhead : rest.head? = some '/' := by
        rw [← hparts, ht, hd]
        rfl
      simp [hhead]
    | cons e s =>
      have hhead : rest.head? ≠ some '/' := by
        have hfirst : e ∈ rest.takeWhile (· != '/') := ht ▸ List.mem_cons_self
        rw [← hparts, ht]
        simpa using List.mem_takeWhile_imp hfirst
      simp [hhead, hmem]

/-- **What is recognized as a pattern.** -/
theorem patternToken_eq_some (h : patternToken before cs = some ((s, f), n)) : ∃ rest,
    cs = '/' :: s ++ '/' :: f ++ rest ∧ s ≠ [] ∧ '/' ∉ s ∧ (∀ c ∈ f, isFlag c = true) ∧
      (∀ c ∈ rest.head?, isFlag c = false) ∧ n = s.length + f.length + 2 := by
  unfold patternToken at h
  split at h
  · rename_i text
    have hparts : text.takeWhile (· != '/') ++ text.dropWhile (· != '/') = text := List.takeWhile_append_dropWhile
    simp only at h
    split at h
    · rename_i d behind hd
      split at h
      · cases h
      · rename_i hempty
        cases h
        have hslash : d = '/' := by
          have hhead := List.head?_dropWhile_not (· != '/') text
          rw [hd] at hhead
          simpa using hhead
        refine ⟨behind.dropWhile isFlag, ?_, by simpa using hempty, ?_, ?_, ?_, rfl⟩
        · simp only [List.cons_append, List.append_assoc, List.takeWhile_append_dropWhile, ← hslash, ← hd]
        · intro hmem
          exact absurd (List.mem_takeWhile_imp hmem) (by simp)
        · exact fun c hc => List.mem_takeWhile_imp hc
        · intro c hc
          have hhead := List.head?_dropWhile_not isFlag behind
          rw [Option.mem_def.mp hc] at hhead
          simpa using hhead
    · cases h
  · cases h

end Patterns

/-! ## Phrases in quotes -/

section Phrases

variable {before : Option Char} {p rest : List Char} {c : Char}

/-- A sign as it is written. -/
def Sign.chars : Sign → List Char
  | plus => ['+']
  | minus => ['-']
  | none => []

theorem looksAhead_phraseToken : LooksAhead phraseToken := fun _ _ _ => rfl

theorem quoted?_of_head (h : rest.head? ≠ some '"') : quoted? rest = none := by
  unfold quoted?
  split
  · exact absurd rfl h
  · rfl

/-- **No phrase begins at a character that is no quote and has none behind it.** -/
theorem phraseToken_eq_none (hc : c ≠ '"') (hrest : rest.head? ≠ some '"') :
    phraseToken before (c :: rest) = none := by
  have hquoted := quoted?_of_head hrest
  have hself : quoted? (c :: rest) = none := quoted?_of_head (by simpa using hc)
  simp only [phraseToken, splitSign]
  split <;> simp_all

theorem quoted?_phrase (hp : p ≠ []) (hquote : '"' ∉ p) : quoted? ('"' :: p ++ '"' :: rest) = some (p, rest) := by
  have hinside : ∀ c ∈ p, (c != '"') = true := by
    intro c hc
    rw [bne_iff_ne]
    rintro rfl
    exact hquote hc
  have htake : (p ++ '"' :: rest).takeWhile (· != '"') = p := by
    rw [List.takeWhile_append_of_pos hinside, List.takeWhile_cons_of_neg (by simp), List.append_nil]
  have hdrop : (p ++ '"' :: rest).dropWhile (· != '"') = '"' :: rest := by
    rw [List.dropWhile_append_of_pos hinside, List.dropWhile_cons_of_neg (by simp)]
  have hne : p.isEmpty = false := by simpa using hp
  simp only [List.cons_append, quoted?, htake, hdrop, hne, Bool.false_eq_true, if_false]

/-- **A phrase is recognized with its sign.** -/
theorem phraseToken_phrase (sign : Sign) (hp : p ≠ []) (hquote : '"' ∉ p) :
    phraseToken before (sign.chars ++ '"' :: p ++ ['"'] ++ rest) =
      some ((sign, p), (sign.chars ++ '"' :: p ++ ['"']).length) := by
  have hquoted : quoted? ('"' :: p ++ '"' :: rest) = some (p, rest) := quoted?_phrase hp hquote
  rw [List.cons_append] at hquoted
  cases sign <;>
    simp [Sign.chars, phraseToken, splitSign, hquoted] <;> omega

end Phrases

end Shelfmark.Query
