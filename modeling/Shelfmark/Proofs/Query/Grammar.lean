import Shelfmark.Proofs.Query.Dropping
import Shelfmark.Proofs.Text.Words

/-!
# Free texts that are written from tokens

A token is a word or a phrase, with or without a sign, or a pattern (`Token`), and tokens are written with single blanks
between them (`render`).  Such a text is read as its tokens say (`parse_render`):

- its patterns are found and leave its words and phrases (`pieces_patterns`, `fill_cut`);
- then its phrases are found and leave its words (`pieces_phrases`, `fill_cutPhrase`);
- and the words are parted at the blanks (`words_bare`).
-/

namespace Shelfmark.Query

/-! ## Tokens -/

/-- A character of a word: no blank, quote or slash. -/
def isPlain (c : Char) : Bool := !Text.isBlank c && c != '"' && c != '/'

/-- A word: plain characters, and no sign in front. -/
structure Word where
  chars : List Char
  ne_nil : chars ≠ []
  plain : chars.all isPlain = true
  unsigned : chars.head? ≠ some '+' ∧ chars.head? ≠ some '-'

/-- A phrase: no quote and no slash in it. -/
structure Phrase where
  chars : List Char
  ne_nil : chars ≠ []
  noQuote : '"' ∉ chars
  noSlash : '/' ∉ chars

/-- What stands between the slashes of a pattern, with no slash in it, and the flags. -/
structure Slashed where
  source : List Char
  flags : List Char
  ne_nil : source ≠ []
  noSlash : '/' ∉ source
  areFlags : flags.all isFlag = true

/-- A token of a free text. -/
inductive Token
  | word (sign : Sign) (w : Word)
  | phrase (sign : Sign) (p : Phrase)
  | pattern (p : Slashed)

namespace Token

/-- A token as it is written. -/
def chars : Token → List Char
  | word sign w => sign.chars ++ w.chars
  | phrase sign p => sign.chars ++ '"' :: p.chars ++ ['"']
  | pattern p => '/' :: p.source ++ '/' :: p.flags

/-- The word of a token with its sign. -/
def word? : Token → Option (Sign × List Char)
  | word sign w => some (sign, w.chars)
  | _ => none

/-- The phrase of a token with its sign. -/
def phrase? : Token → Option (Sign × List Char)
  | phrase sign p => some (sign, p.chars)
  | _ => none

/-- The pattern of a token. -/
def pattern? : Token → Option PatternText
  | pattern p => some (p.source, p.flags)
  | _ => none

/-- A token after its pattern was found. -/
def cut : Token → List (Piece PatternText)
  | pattern p => [.token (p.source, p.flags)]
  | t => t.chars.map .char

/-- What is left of a token when its pattern was taken out. -/
def unpatterned : Token → List Char
  | pattern _ => [' ']
  | t => t.chars

/-- A token after its phrase was found. -/
def cutPhrase : Token → List (Piece (Sign × List Char))
  | word sign w => (sign.chars ++ w.chars).map .char
  | phrase sign p => [.token (sign, p.chars)]
  | pattern _ => [.char ' ']

/-- What is left of a token when its pattern or phrase was taken out. -/
def bare : Token → List Char
  | word sign w => sign.chars ++ w.chars
  | _ => [' ']

end Token

/-- A text of tokens with single blanks between them. -/
def render (ts : List Token) : List Char := Text.join [' '] (ts.map Token.chars)

theorem Word.plain_of_mem (w : Word) {c : Char} (h : c ∈ w.chars) : Text.isBlank c = false ∧ c ≠ '"' ∧ c ≠ '/' := by
  have hc := List.all_eq_true.mp w.plain c h
  simpa [isPlain, and_assoc] using hc

/-! ## Tokens behind blanks -/

section Spaced

variable {α β : Type} {r : Recognizer α} {f : Token → List Char} {g : Token → List (Piece α)} {ts : List Token}

/-- What stands for some tokens, with a blank in front of each. -/
def spaced (blank : β) (f : Token → List β) (ts : List Token) : List β := ts.flatMap fun t => blank :: f t

theorem spaced_cons (blank : β) (f : Token → List β) (t : Token) (ts : List Token) :
    spaced blank f (t :: ts) = blank :: (f t ++ spaced blank f ts) := rfl

theorem eq_of_head?_spaced {blank b : β} {f : Token → List β} (h : b ∈ (spaced blank f ts).head?) : b = blank := by
  cases ts with
  | nil => cases h
  | cons t ts => exact (Option.some.inj h).symm

theorem blank_render : ∀ (t : Token) (ts : List Token), ' ' :: render (t :: ts) = spaced ' ' Token.chars (t :: ts)
  | t, [] => by simp [render, Text.join, spaced]
  | t, t' :: ts => by
    rw [spaced_cons, ← blank_render t' ts]
    simp [render, Text.join]

/-- Tokens that are cut one by one are cut all together. -/
theorem pieces_spaced (hr : LooksAhead r) (hblank : ∀ rest, r none (' ' :: rest) = none)
    (h : ∀ t rest, (∀ c ∈ rest.head?, c = ' ') → pieces r (f t ++ rest) = g t ++ pieces r rest) :
    ∀ ts, pieces r (spaced ' ' f ts) = spaced (.char ' ') g ts
  | [] => rfl
  | t :: ts => by
    have hrest := pieces_spaced hr hblank h ts
    rw [spaced_cons, spaced_cons, pieces_of_none hr (hblank _), h t _ fun c hc => eq_of_head?_spaced hc, hrest]

theorem fill_spaced (h : ∀ t, fill [' '] (g t) = f t) :
    ∀ ts, fill [' '] (spaced (.char ' ') g ts) = spaced ' ' f ts
  | [] => rfl
  | t :: ts => by
    rw [spaced_cons, spaced_cons, ← fill_spaced h ts, ← h t, ← fill_append]
    rfl

theorem tokensOf_spaced {k : Token → Option α} (h : ∀ t, tokensOf (g t) = (k t).toList) :
    ∀ ts, tokensOf (spaced (.char ' ') g ts) = ts.filterMap k
  | [] => rfl
  | t :: ts => by
    have hrest : tokensOf (spaced (.char ' ') g (t :: ts)) = tokensOf (g t) ++ tokensOf (spaced (.char ' ') g ts) :=
      tokensOf_append
    rw [hrest, tokensOf_spaced h ts, h t, List.filterMap_cons]
    cases k t <;> rfl

/-- The words of tokens are their words one after the other. -/
theorem words_spaced : ∀ ts, Text.words (spaced ' ' f ts) = ts.flatMap fun t => Text.words (f t)
  | [] => rfl
  | t :: ts => by
    have hfirst : Text.words (' ' :: (f t ++ spaced ' ' f ts)) = Text.words (f t ++ spaced ' ' f ts) :=
      Text.splitOn_append_sep (by decide) [] _
    have hrest := words_spaced ts
    rw [spaced_cons, hfirst, List.flatMap_cons, ← hrest]
    cases ts with
    | nil =>
      show Text.words (f t ++ []) = Text.words (f t) ++ []
      rw [List.append_nil, List.append_nil]
    | cons t' ts =>
      have hsecond : Text.words (' ' :: (f t' ++ spaced ' ' f ts)) = Text.words (f t' ++ spaced ' ' f ts) :=
        Text.splitOn_append_sep (by decide) [] _
      rw [spaced_cons, hsecond]
      exact Text.splitOn_append_sep (by decide) (f t) _

end Spaced

/-! ## Patterns are found -/

/-- Where no slash stands no pattern begins. -/
theorem pieces_patternToken_plain {cs rest : List Char} (h : '/' ∉ cs) :
    pieces patternToken (cs ++ rest) = cs.map .char ++ pieces patternToken rest := by
  refine pieces_chars looksAhead_patternToken fun c behind hc => patternToken_of_ne ?_
  rintro rfl
  exact h (hc.subset List.mem_cons_self)

theorem slash_notMem_word (sign : Sign) (w : Word) : '/' ∉ sign.chars ++ w.chars := by
  intro h
  rcases List.mem_append.mp h with h | h
  · cases sign <;> simp [Sign.chars] at h
  · exact (w.plain_of_mem h).2.2 rfl

theorem slash_notMem_phrase (sign : Sign) (p : Phrase) : '/' ∉ sign.chars ++ '"' :: p.chars ++ ['"'] := by
  have hp := p.noSlash
  cases sign <;> simp [Sign.chars, hp]

/-- **The patterns of tokens are found.** -/
theorem pieces_patterns (ts : List Token) :
    pieces patternToken (spaced ' ' Token.chars ts) = spaced (.char ' ') Token.cut ts := by
  refine pieces_spaced looksAhead_patternToken (fun _ => patternToken_of_ne (by decide)) (fun t rest hrest => ?_) ts
  cases t with
  | word sign w => exact pieces_patternToken_plain (slash_notMem_word sign w)
  | phrase sign p => exact pieces_patternToken_plain (slash_notMem_phrase sign p)
  | pattern p =>
    have hbehind : ∀ c ∈ rest.head?, isFlag c = false := by
      intro c hc
      rw [hrest c hc]
      rfl
    have hlength : ('/' :: p.source ++ '/' :: p.flags).length = p.source.length + p.flags.length + 2 := by
      simp only [List.length_append, List.length_cons]
      omega
    have hflags := List.all_eq_true.mp p.areFlags
    have htoken : patternToken none _ = _ := patternToken_token p.ne_nil p.noSlash hflags hbehind
    rw [← hlength] at htoken
    exact pieces_token looksAhead_patternToken (List.cons_ne_nil _ _) htoken

theorem fill_cut (t : Token) : fill [' '] t.cut = t.unpatterned := by
  cases t with
  | word | phrase => exact fill_chars _
  | pattern => rfl

theorem tokensOf_cut (t : Token) : tokensOf t.cut = t.pattern?.toList := by
  cases t with
  | word | phrase => exact tokensOf_chars _
  | pattern => rfl

/-! ## Phrases are found -/

/-- Where no quote stands no phrase begins. -/
theorem pieces_phraseToken_plain {cs rest : List Char} (h : '"' ∉ cs) (hrest : rest.head? ≠ some '"') :
    pieces phraseToken (cs ++ rest) = cs.map .char ++ pieces phraseToken rest := by
  refine pieces_chars looksAhead_phraseToken fun c behind hc => phraseToken_eq_none ?_ ?_
  · rintro rfl
    exact h (hc.subset List.mem_cons_self)
  · cases behind with
    | nil => exact hrest
    | cons d behind =>
      intro hd
      cases hd
      exact h (hc.subset (List.mem_cons_of_mem c List.mem_cons_self))

theorem quote_notMem_word (sign : Sign) (w : Word) : '"' ∉ sign.chars ++ w.chars := by
  intro h
  rcases List.mem_append.mp h with h | h
  · cases sign <;> simp [Sign.chars] at h
  · exact (w.plain_of_mem h).2.1 rfl

/-- **The phrases of tokens are found when the patterns were taken out.** -/
theorem pieces_phrases (ts : List Token) :
    pieces phraseToken (spaced ' ' Token.unpatterned ts) = spaced (.char ' ') Token.cutPhrase ts := by
  refine pieces_spaced looksAhead_phraseToken (fun _ => rfl) (fun t rest hrest => ?_) ts
  have hquote : rest.head? ≠ some '"' := fun h => absurd (hrest '"' h) (by decide)
  cases t with
  | word sign w => exact pieces_phraseToken_plain (quote_notMem_word sign w) hquote
  | phrase sign p =>
    have hne : sign.chars ++ '"' :: p.chars ++ ['"'] ≠ [] := by simp
    exact pieces_token looksAhead_phraseToken hne (phraseToken_phrase sign p.ne_nil p.noQuote)
  | pattern p =>
    have hblank : '"' ∉ [' '] := by decide
    exact pieces_phraseToken_plain hblank hquote

theorem fill_cutPhrase (t : Token) : fill [' '] t.cutPhrase = t.bare := by
  cases t with
  | word => exact fill_chars _
  | phrase | pattern => rfl

theorem tokensOf_cutPhrase (t : Token) : tokensOf t.cutPhrase = t.phrase?.toList := by
  cases t with
  | word => exact tokensOf_chars _
  | phrase | pattern => rfl

/-! ## Words are parted -/

theorem words_word (sign : Sign) (w : Word) : Text.words (sign.chars ++ w.chars) = [sign.chars ++ w.chars] := by
  refine Text.splitOn_of_noSep (by simp [w.ne_nil]) fun c hc => ?_
  rcases List.mem_append.mp hc with hc | hc
  · cases sign <;> simp [Sign.chars] at hc <;> subst hc <;> decide
  · exact (w.plain_of_mem hc).1

/-- The sign of a word is told from the word. -/
theorem wordTerm_word (sign : Sign) (w : Word) : wordTerm (sign.chars ++ w.chars) = some (sign, w.chars) := by
  have hne : w.chars.isEmpty = false := by simpa using w.ne_nil
  cases sign with
  | plus | minus => simp [wordTerm, Sign.chars, splitSign, hne]
  | none =>
    have hsplit : splitSign w.chars = (.none, w.chars) := by
      obtain ⟨hplus, hminus⟩ := w.unsigned
      unfold splitSign
      split
      · rename_i hw
        exact absurd (by rw [hw]; rfl) hplus
      · rename_i hw
        exact absurd (by rw [hw]; rfl) hminus
      · rfl
    simp [wordTerm, Sign.chars, hsplit, hne]

/-- **The words of tokens are found when patterns and phrases were taken out.** -/
theorem words_bare : ∀ ts : List Token,
    (Text.words (spaced ' ' Token.bare ts)).filterMap wordTerm = ts.filterMap Token.word? := by
  intro ts
  rw [words_spaced]
  induction ts with
  | nil => rfl
  | cons t ts ih =>
    rw [List.flatMap_cons, List.filterMap_append, ih, List.filterMap_cons]
    cases t with
    | word sign w =>
      have hone : (Text.words (sign.chars ++ w.chars)).filterMap wordTerm = [(sign, w.chars)] := by
        rw [words_word, List.filterMap_cons, wordTerm_word]
        rfl
      exact congrArg (· ++ _) hone
    | phrase | pattern => rfl

/-! ## The whole text -/

/-- What the words and phrases of some tokens ask for. -/
def asked (ts : List Token) : TextQuery where
  positive := withSign .plus (ts.filterMap Token.phrase?) ++ withSign .plus (ts.filterMap Token.word?)
  negative := withSign .minus (ts.filterMap Token.phrase?) ++ withSign .minus (ts.filterMap Token.word?)
  phrases := withSign .none (ts.filterMap Token.phrase?)
  regular := withSign .none (ts.filterMap Token.word?)

theorem parsePlain_spaced (ts : List Token) : parsePlain (spaced ' ' Token.unpatterned ts) = asked ts := by
  simp only [parsePlain, pieces_phrases, fill_spaced fill_cutPhrase, tokensOf_spaced tokensOf_cutPhrase, words_bare,
    asked]

/-- A blank in front of a text asks for nothing. -/
theorem parsePlain_blank (cs : List Char) : parsePlain (' ' :: cs) = parsePlain cs := by
  have hpieces : pieces phraseToken (' ' :: cs) = .char ' ' :: pieces phraseToken cs :=
    pieces_of_none looksAhead_phraseToken rfl
  have hwords : ∀ rest, Text.words (' ' :: rest) = Text.words rest := fun rest =>
    Text.splitOn_append_sep (by decide) [] rest
  have hfill : fill [' '] (.char ' ' :: pieces phraseToken cs) = ' ' :: fill [' '] (pieces phraseToken cs) := rfl
  have htokens : tokensOf (.char ' ' :: pieces phraseToken cs) = tokensOf (pieces phraseToken cs) := rfl
  simp only [parsePlain, hpieces, hfill, htokens, hwords]

/-- Every token asks for one thing. -/
theorem length_asked (ts : List Token) :
    (asked ts).positive.length + (asked ts).negative.length + (asked ts).phrases.length + (asked ts).regular.length +
      (ts.filterMap Token.pattern?).length = ts.length := by
  simp only [asked, withSign, List.length_append, List.length_map]
  induction ts with
  | nil => rfl
  | cons t ts ih =>
    rcases t with ⟨_ | _ | _, _⟩ | ⟨_ | _ | _, _⟩ | _ <;>
      simp [List.filterMap_cons, Token.word?, Token.phrase?, Token.pattern?] <;> omega

/-- **A text of tokens is read as its tokens say, and each of them says one thing.** -/
theorem parse_render (host : Host) (ts : List Token) :
    TextQuery.parse host (String.ofList (render ts)) =
      ((ts.filterMap Token.pattern?).mapM fun t => compilePattern host t.1 t.2).map
        (fun found => { asked ts with patterns := found.filterMap id }) ∧
    (asked ts).positive.length + (asked ts).negative.length + (asked ts).phrases.length + (asked ts).regular.length +
      (ts.filterMap Token.pattern?).length = ts.length := by
  refine ⟨?_, length_asked ts⟩
  rw [parse_eq, String.toList_ofList]
  cases ts with
  | nil => rfl
  | cons t ts =>
    -- the text and the text with a blank in front have the same tokens
    have hpieces : .char ' ' :: pieces patternToken (render (t :: ts)) = spaced (.char ' ') Token.cut (t :: ts) := by
      rw [← pieces_patterns, ← blank_render, pieces_of_none looksAhead_patternToken (patternToken_of_ne (by decide))]
    have htokens : tokensOf (pieces patternToken (render (t :: ts))) = (t :: ts).filterMap Token.pattern? := by
      rw [← tokensOf_spaced tokensOf_cut, ← hpieces]
      rfl
    have hfill : ' ' :: fill [' '] (pieces patternToken (render (t :: ts))) =
        spaced ' ' Token.unpatterned (t :: ts) := by
      rw [← fill_spaced fill_cut, ← hpieces]
      rfl
    rw [ofPieces, htokens, ← parsePlain_blank, hfill, parsePlain_spaced]
    cases ((t :: ts).filterMap Token.pattern?).mapM fun t => compilePattern host t.1 t.2 <;> rfl

/-- The text of one pattern that asks for a letter too many times and of a word is not read. -/
theorem not_parse_oversized : render [.pattern ⟨"a{99999999999}".toList, [], by decide, by decide, rfl⟩,
      .word .none ⟨"rust".toList, by decide, by decide, by decide⟩] = "/a{99999999999}/ rust".toList ∧
    ¬∃ q, TextQuery.parse {} "/a{99999999999}/ rust" = .ok q := by
  refine ⟨by decide, ?_⟩
  rintro ⟨q, hq⟩
  have hunread : (TextQuery.parse {} "/a{99999999999}/ rust").toOption.isSome = false := by decide +kernel
  rw [hq] at hunread
  cases hunread

end Shelfmark.Query
