import Shelfmark.Proofs.Fallible
import Shelfmark.Proofs.Query.Pieces

/-!
# Patterns that are dropped

A free text is read from its pieces (`parse_eq`), and this fails exactly if one of its patterns is refused otherwise
than as malformed (`exists_ofPieces_eq_ok`, `ofPieces_eq_error`).

- A malformed pattern counts as a blank among the pieces (`ofPieces_dropped`);
- the pieces of a text spell the text, each of them fitting what follows (`spell_pieces`), and pieces that fit are
  found again (`pieces_spell`), so a blank may be written in place of a malformed pattern (`parse_dropped`).
-/

namespace Shelfmark.Query

/-- A pattern as it stands in a text: what stands between the slashes, and the flags. -/
abbrev PatternText := List Char × List Char

variable {host : Host} {ps before after : List (Piece PatternText)} {t : PatternText} {cs : List Char}

/-- A pattern as it is compiled. -/
def compiled (host : Host) (t : PatternText) : Except Pattern.Refusal Pattern :=
  Pattern.compile host (modesOf t.2) (String.ofList t.1)

theorem compilePattern_eq (host : Host) (t : PatternText) : compilePattern host t.1 t.2 =
    match compiled host t with
    | .ok p => .ok (some p)
    | .error .malformed => .ok none
    | .error r => .error r := rfl

theorem compilePattern_eq_error {r : Pattern.Refusal} :
    compilePattern host t.1 t.2 = .error r ↔ compiled host t = .error r ∧ r ≠ .malformed := by
  rw [compilePattern_eq]
  rcases compiled host t with (_ | _ | _ | _ | _) | _ <;> cases r <;> simp

theorem exists_compilePattern_eq_ok :
    (∃ p, compilePattern host t.1 t.2 = .ok p) ↔ ∀ r, compiled host t = .error r → r = .malformed := by
  rw [compilePattern_eq]
  rcases compiled host t with (_ | _ | _ | _ | _) | _ <;> simp

/-- A pattern that is compiled is kept, and a malformed one is dropped. -/
theorem eq_toOption_of_compilePattern {p : Option Pattern} (h : compilePattern host t.1 t.2 = .ok p) :
    p = (compiled host t).toOption := by
  rw [compilePattern_eq] at h
  split at h
  · rename_i hp
    cases h
    rw [hp]
    rfl
  · rename_i hmalformed
    cases h
    rw [hmalformed]
    rfl
  · cases h

/-! ## Reading pieces -/

/-- What the pieces of a free text ask for. -/
def ofPieces (host : Host) (ps : List (Piece PatternText)) : Except Pattern.Refusal TextQuery := do
  let patterns ← (tokensOf ps).mapM fun t => compilePattern host t.1 t.2
  return { parsePlain (fill [' '] ps) with patterns := patterns.filterMap id }

theorem parse_eq (host : Host) (text : String) :
    TextQuery.parse host text = ofPieces host (pieces patternToken text.toList) := rfl

/-- **Pieces are read unless a pattern among them is refused otherwise than as malformed.** -/
theorem exists_ofPieces_eq_ok : (∃ q, ofPieces host ps = .ok q) ↔
    ∀ t ∈ tokensOf ps, ∀ r, compiled host t = .error r → r = .malformed := by
  simp only [← exists_compilePattern_eq_ok, ← exists_mapM_eq_ok, ofPieces, bind_eq_ok]
  constructor
  · rintro ⟨_, found, hfound, _⟩
    exact ⟨found, hfound⟩
  · rintro ⟨found, hfound⟩
    exact ⟨_, found, hfound, rfl⟩

/-- The patterns that are compiled are asked for, and the text with a blank in place of each pattern is read apart. -/
theorem ofPieces_eq {q : TextQuery} (h : ofPieces host ps = .ok q) : q =
    { parsePlain (fill [' '] ps) with patterns := (tokensOf ps).filterMap fun t => (compiled host t).toOption } := by
  obtain ⟨found, hfound, hq⟩ := bind_eq_ok.mp h
  cases hq
  have hkept := eq_map_of_mapM (fun t p => eq_toOption_of_compilePattern) hfound
  rw [hkept, List.filterMap_map]
  rfl

theorem ofPieces_eq_error {r : Pattern.Refusal} (h : ofPieces host ps = .error r) :
    ∃ t ∈ tokensOf ps, compiled host t = .error r ∧ r ≠ .malformed := by
  rcases bind_eq_error.mp h with h | ⟨_, _, h⟩
  · obtain ⟨t, ht, hr⟩ := exists_of_mapM_eq_error h
    exact ⟨t, ht, compilePattern_eq_error.mp hr⟩
  · cases h

/-- **A malformed pattern counts as a blank.** -/
theorem ofPieces_dropped (ht : compiled host t = .error .malformed) :
    ofPieces host (before ++ .token t :: after) = ofPieces host (before ++ .char ' ' :: after) := by
  have hnone : compilePattern host t.1 t.2 = .ok none := by rw [compilePattern_eq, ht]
  have htext : fill [' '] (before ++ .token t :: after) = fill [' '] (before ++ .char ' ' :: after) := by
    rw [fill_append, fill_append]
    rfl
  have htoken : tokensOf (before ++ .token t :: after) = tokensOf before ++ t :: tokensOf after := tokensOf_append
  have hblank : tokensOf (before ++ .char ' ' :: after) = tokensOf before ++ tokensOf after := tokensOf_append
  simp only [ofPieces, htext, htoken, hblank, List.mapM_append, List.mapM_cons, hnone]
  cases (tokensOf before).mapM fun t => compilePattern host t.1 t.2 with
  | error r => rfl
  | ok found =>
    cases (tokensOf after).mapM fun t => compilePattern host t.1 t.2 with
    | error r => rfl
    | ok found' => simp [bind, Except.bind, pure, Except.pure]

/-! ## The text of pieces -/

/-- The text of a piece. -/
def Piece.spell : Piece PatternText → List Char
  | .token t => '/' :: t.1 ++ '/' :: t.2
  | .char c => [c]

/-- The text of some pieces. -/
def spell (ps : List (Piece PatternText)) : List Char := ps.flatMap Piece.spell

/-- A piece stands rightly in front of a text: a pattern is one, and its flags end there; a slash that is taken alone
begins no pattern. -/
def Piece.Fits : Piece PatternText → List Char → Prop
  | .token t, rest => t.1 ≠ [] ∧ '/' ∉ t.1 ∧ (∀ c ∈ t.2, isFlag c = true) ∧ ∀ c ∈ rest.head?, isFlag c = false
  | .char c, rest => c ≠ '/' ∨ rest.head? = some '/' ∨ '/' ∉ rest

/-- Every piece stands rightly in front of the text of those behind it. -/
def Parted : List (Piece PatternText) → Prop
  | [] => True
  | p :: ps => p.Fits (spell ps) ∧ Parted ps

theorem spell_append (ps qs : List (Piece PatternText)) : spell (ps ++ qs) = spell ps ++ spell qs := List.flatMap_append

/-- **Pieces that stand rightly are the pieces of their text.** -/
theorem pieces_spell : ∀ {ps : List (Piece PatternText)}, Parted ps → pieces patternToken (spell ps) = ps
  | [], _ => rfl
  | .char c :: ps, ⟨hfits, hps⟩ => by
    have hnone : patternToken none (c :: spell ps) = none := by
      by_cases hc : c = '/'
      · subst hc
        exact patternToken_slash.mpr (hfits.resolve_left fun h => h rfl)
      · exact patternToken_of_ne hc
    show pieces patternToken (c :: spell ps) = _
    rw [pieces_of_none looksAhead_patternToken hnone, pieces_spell hps]
  | .token (s, f) :: ps, ⟨⟨hs, hslash, hf, hrest⟩, hps⟩ => by
    have hlength : ('/' :: s ++ '/' :: f).length = s.length + f.length + 2 := by
      simp only [List.length_append, List.length_cons]
      omega
    have hsome : patternToken none _ = _ := patternToken_token hs hslash hf hrest
    rw [← hlength] at hsome
    show pieces patternToken ('/' :: s ++ '/' :: f ++ spell ps) = _
    rw [pieces_token looksAhead_patternToken (by simp) hsome, pieces_spell hps]

/-- **The pieces of a text spell it and stand rightly.** -/
theorem spell_pieces (cs : List Char) :
    spell (pieces patternToken cs) = cs ∧ Parted (pieces patternToken cs) := by
  induction hn : cs.length using Nat.strong_induction_on generalizing cs with
  | _ n ih =>
    cases cs with
    | nil => exact ⟨rfl, trivial⟩
    | cons c rest =>
      cases htoken : patternToken none (c :: rest) with
      | none =>
        obtain ⟨hspell, hparted⟩ := ih rest.length (by simp [← hn]) rest rfl
        rw [pieces_of_none looksAhead_patternToken htoken]
        refine ⟨by rw [spell, List.flatMap_cons, ← spell, hspell]; rfl, ?_, hparted⟩
        rw [hspell]
        by_cases hc : c = '/'
        · subst hc
          exact Or.inr (patternToken_slash.mp htoken)
        · exact Or.inl hc
      | some found =>
        obtain ⟨⟨s, f⟩, m⟩ := found
        obtain ⟨behind, htext, hs, hslash, hf, hbehind, hm⟩ := patternToken_eq_some htoken
        have hlength : ('/' :: s ++ '/' :: f).length = m := by
          simp only [List.length_append, List.length_cons]
          omega
        obtain ⟨hspell, hparted⟩ := ih behind.length (by rw [← hn, htext, List.length_append]; omega) behind rfl
        rw [htext, ← hlength] at htoken
        rw [htext, pieces_token looksAhead_patternToken (by simp) htoken]
        refine ⟨by rw [spell, List.flatMap_cons, ← spell, hspell]; rfl, ⟨hs, hslash, hf, ?_⟩, hparted⟩
        rwa [hspell]

/-- What stands in front of pieces does not see a change behind them. -/
theorem head?_spell_append (hne : ps ≠ []) (qs qs' : List (Piece PatternText)) :
    (spell (ps ++ qs)).head? = (spell (ps ++ qs')).head? := by
  rcases ps with _ | ⟨_ | _, ps⟩
  · exact absurd rfl hne
  · rfl
  · rfl

/-- Pieces stand rightly with a blank in place of a pattern unless a slash that is taken alone stands before it. -/
theorem Parted.dropped : ∀ {before : List (Piece PatternText)}, Parted (before ++ .token t :: after) →
    before.getLast? ≠ some (.char '/') → Parted (before ++ .char ' ' :: after)
  | [], ⟨_, h⟩, _ => ⟨Or.inl (by decide), h⟩
  | p :: before, hparted, hlast => by
    obtain ⟨hfits, h⟩ : p.Fits (spell (before ++ .token t :: after)) ∧ Parted (before ++ .token t :: after) := hparted
    have hlast' : before.getLast? ≠ some (.char '/') := by
      intro hl
      rw [List.getLast?_cons, hl] at hlast
      exact hlast rfl
    show p.Fits (spell (before ++ .char ' ' :: after)) ∧ _
    refine ⟨?_, Parted.dropped h hlast'⟩
    cases p with
    | token t' =>
      obtain ⟨hs, hslash, hf, hrest⟩ := hfits
      refine ⟨hs, hslash, hf, ?_⟩
      by_cases hnil : before = []
      · subst hnil
        rintro c hc
        cases hc
        decide
      · rwa [head?_spell_append hnil _ (.token t :: after)]
    | char c =>
      rcases hfits with hc | hhead | hno
      · exact Or.inl hc
      · by_cases hnil : before = []
        · subst hnil
          refine Or.inl ?_
          rintro rfl
          exact hlast rfl
        · exact Or.inr (Or.inl (by rwa [head?_spell_append hnil _ (.token t :: after)]))
      · refine absurd ?_ hno
        rw [spell_append]
        exact List.mem_append_right _ List.mem_cons_self

/-- **A text with a blank in place of a malformed pattern is read alike.** -/
theorem parse_dropped (hps : pieces patternToken cs = before ++ .token t :: after)
    (ht : compiled host t = .error .malformed) (hlast : before.getLast? ≠ some (.char '/')) :
    TextQuery.parse host (String.ofList (spell before ++ ' ' :: spell after)) =
      TextQuery.parse host (String.ofList cs) := by
  have hparted : Parted (before ++ .token t :: after) := hps ▸ (spell_pieces cs).2
  have hspell : spell before ++ ' ' :: spell after = spell (before ++ .char ' ' :: after) := by
    rw [spell_append]
    rfl
  rw [parse_eq, parse_eq, String.toList_ofList, String.toList_ofList, hspell, pieces_spell (hparted.dropped hlast), hps,
    ofPieces_dropped ht]

end Shelfmark.Query
