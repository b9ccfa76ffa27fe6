import Mathlib.Data.List.ReduceOption
import Shelfmark.Proofs.Query.Keys

/-!
# Lines of tokens

A line is a text of tokens with single blanks between them, of which some may be struck out (`line`).  A recognizer that
looks only at the beginning of a text and behind blanks (`Anchored`), and that recognizes the tokens of a line as a
whole or not at all (`Reads`), works on a line token by token:

- the first token it recognizes is struck out (`cutFirst_line`);
- or all of them are (`tokensOf_line`, `fill_line`).

What is left of a line in the end are the tokens that are not struck out (`squash_line`).
-/

namespace Shelfmark.Query

/-! ## Anchored recognizers -/

section Anchored

variable {α : Type} {r : Recognizer α} {b : Char} {front rest cs : List Char}

/-- The recognizer finds tokens only at the beginning of a text and behind blanks. -/
structure Anchored (r : Recognizer α) : Prop where
  inside : ∀ {b : Char} (cs : List Char), Text.isBlank b = false → r (some b) cs = none
  behind : ∀ {b : Char} (cs : List Char), Text.isBlank b = true → r (some b) cs = r none cs

theorem anchored_keyed (ws : List Char) (value : List Char → Option (α × Nat)) : Anchored (keyed ws value) where
  inside cs hb := by simp [keyed, atStart, hb]
  behind cs hb := by simp [keyed, atStart, hb]

theorem anchored_flagged (phrases : List (List Char)) : Anchored (flagged phrases) where
  inside cs hb := by simp [flagged, atStart, hb]
  behind cs hb := by simp [flagged, atStart, hb]

/-- The character before the rest of a text. -/
theorem last_cons (c : Char) (front : List Char) (before : Option Char) :
    (c :: front).getLast?.or before = front.getLast?.or (some c) := by
  rw [List.getLast?_cons]
  cases front.getLast? <;> rfl

/-- Nothing stands before a text. -/
theorem last_first (c : Char) (front : List Char) : (c :: front).getLast? = front.getLast?.or (some c) := by
  rw [← last_cons c front none, Option.or_none]

/-- A token at the front is cut out. -/
theorem cutFirst_found {a : α} {n : Nat} (hne : cs ≠ []) (h : r none cs = some (a, n)) :
    cutFirst r cs = some (a, cs.drop n) := by
  cases cs with
  | nil => exact absurd rfl hne
  | cons c cs => simp only [cutFirst, cutFirstFrom, h]

/-- The characters of a token are skipped. -/
theorem piecesFrom_skip : ∀ {before : Option Char} {front : List Char},
    piecesFrom r before front.length (front ++ rest) = piecesFrom r (front.getLast?.or before) 0 rest
  | _, [] => rfl
  | before, c :: front => by rw [List.cons_append, List.length_cons, piecesFrom, piecesFrom_skip, last_cons]

/-- A token at the front is found. -/
theorem pieces_found {a : α} (hne : front ≠ []) (h : r none (front ++ rest) = some (a, front.length)) :
    pieces r (front ++ rest) = .token a :: piecesFrom r front.getLast? 0 rest := by
  cases front with
  | nil => exact absurd rfl hne
  | cons c front =>
    rw [List.cons_append] at h
    simp only [pieces, List.cons_append, piecesFrom, h, List.length_cons, Nat.add_sub_cancel, piecesFrom_skip, last_first]

/-- **Nothing is cut out of a text exactly if nothing is recognized at any place.** -/
theorem cutFirstFrom_eq_none : ∀ {before : Option Char} {cs : List Char}, cutFirstFrom r before cs = none ↔
    ∀ front rest, cs = front ++ rest → rest ≠ [] → r (front.getLast?.or before) rest = none
  | before, [] => by
    refine ⟨fun _ front rest he hne => ?_, fun _ => rfl⟩
    exact absurd (List.append_eq_nil_iff.mp he.symm).2 hne
  | before, c :: cs => by
    rw [cutFirstFrom]
    cases hc : r before (c :: cs) with
    | some found =>
      refine ⟨fun h => (nomatch h), fun h => ?_⟩
      have hnone : r before (c :: cs) = none := h [] (c :: cs) rfl (List.cons_ne_nil c cs)
      rw [hc] at hnone
      cases hnone
    | none =>
      simp only [Option.map_eq_none_iff, cutFirstFrom_eq_none]
      constructor
      · rintro h (_ | ⟨d, front⟩) rest he hne
        · rw [List.nil_append] at he
          exact he ▸ hc
        · obtain ⟨rfl, hcs⟩ := List.cons.inj he
          rw [last_cons]
          exact h front rest hcs hne
      · intro h front rest he hne
        have hrest := h (c :: front) rest (by rw [he]; rfl) hne
        rwa [last_cons] at hrest

/-- A text is shorter when a token is cut out. -/
theorem cutFirstFrom_shorter (hpos : ∀ {before cs a n}, r before cs = some (a, n) → 0 < n) :
    ∀ {before : Option Char} {cs rest : List Char} {a : α}, cutFirstFrom r before cs = some (a, rest) →
      rest.length < cs.length
  | _, [], _, _, h => nomatch h
  | before, c :: cs, rest, a, h => by
    rw [cutFirstFrom] at h
    cases hc : r before (c :: cs) with
    | some found =>
      rw [hc] at h
      cases h
      have hn := hpos hc
      rw [List.length_drop, List.length_cons]
      omega
    | none =>
      rw [hc] at h
      obtain ⟨⟨b, cs'⟩, hrest, he⟩ := Option.map_eq_some_iff.mp h
      cases he
      exact Nat.succ_lt_succ (cutFirstFrom_shorter hpos hrest)

/-- A text out of which nothing is cut has no tokens. -/
theorem piecesFrom_of_none : ∀ {before : Option Char} {cs : List Char}, cutFirstFrom r before cs = none →
    piecesFrom r before 0 cs = cs.map .char
  | _, [], _ => rfl
  | before, c :: cs, h => by
    rw [cutFirstFrom] at h
    rw [piecesFrom]
    cases hc : r before (c :: cs) with
    | some found =>
      rw [hc] at h
      cases h
    | none =>
      simp only [hc, Option.map_eq_none_iff] at h
      exact congrArg _ (piecesFrom_of_none h)

theorem tokensOf_ne_nil : ∀ {before : Option Char} {cs : List Char}, cutFirstFrom r before cs ≠ none →
    tokensOf (piecesFrom r before 0 cs) ≠ []
  | _, [], h => absurd rfl h
  | before, c :: cs, h => by
    rw [cutFirstFrom] at h
    rw [piecesFrom]
    cases hc : r before (c :: cs) with
    | some found => exact List.cons_ne_nil _ _
    | none =>
      simp only [hc, ne_eq, Option.map_eq_none_iff] at h
      exact tokensOf_ne_nil h

variable (hr : Anchored r)
include hr

theorem cutFirstFrom_behind (hb : Text.isBlank b = true) (cs : List Char) :
    cutFirstFrom r (some b) cs = cutFirst r cs := by
  cases cs with
  | nil => rfl
  | cons c cs => rw [cutFirst, cutFirstFrom, cutFirstFrom, hr.behind _ hb]

theorem piecesFrom_behind (hb : Text.isBlank b = true) (cs : List Char) :
    piecesFrom r (some b) 0 cs = pieces r cs := by
  cases cs with
  | nil => rfl
  | cons c cs => rw [pieces, piecesFrom, piecesFrom, hr.behind _ hb]

/-- No token begins inside of what has no blanks. -/
theorem cutFirstFrom_inside : ∀ {b : Char} {front : List Char}, Text.isBlank b = false →
    (∀ c ∈ front, Text.isBlank c = false) → cutFirstFrom r (some b) (front ++ rest) =
      (cutFirstFrom r (front.getLast?.or (some b)) rest).map fun (a, cs) => (a, front ++ cs)
  | b, [], _, _ => by simp
  | b, c :: front, hb, hfront => by
    rw [List.cons_append, cutFirstFrom, hr.inside _ hb,
      cutFirstFrom_inside (hfront c List.mem_cons_self) fun d hd => hfront d (List.mem_cons_of_mem c hd), last_cons]
    exact Option.map_map ..

theorem piecesFrom_inside : ∀ {b : Char} {front : List Char}, Text.isBlank b = false →
    (∀ c ∈ front, Text.isBlank c = false) → piecesFrom r (some b) 0 (front ++ rest) =
      front.map .char ++ piecesFrom r (front.getLast?.or (some b)) 0 rest
  | b, [], _, _ => by simp
  | b, c :: front, hb, hfront => by
    rw [List.cons_append, piecesFrom, hr.inside _ hb,
      piecesFrom_inside (hfront c List.mem_cons_self) fun d hd => hfront d (List.mem_cons_of_mem c hd), last_cons]
    rfl

variable (hfront : ∀ c ∈ front, Text.isBlank c = false) (hnone : r none (front ++ rest) = none)
include hfront hnone

/-- **The search goes on behind the first piece of a text if that is no token.** -/
theorem cutFirst_front (hne : front ≠ []) : cutFirst r (front ++ rest) =
    (cutFirstFrom r front.getLast? rest).map fun (a, cs) => (a, front ++ cs) := by
  cases front with
  | nil => exact absurd rfl hne
  | cons c front =>
    rw [List.cons_append] at hnone
    rw [cutFirst, List.cons_append, cutFirstFrom, hnone, last_first]
    simp only [cutFirstFrom_inside hr (hfront c List.mem_cons_self) fun d hd => hfront d (List.mem_cons_of_mem c hd)]
    exact Option.map_map ..

theorem pieces_front (hne : front ≠ []) : pieces r (front ++ rest) =
    front.map .char ++ piecesFrom r front.getLast? 0 rest := by
  cases front with
  | nil => exact absurd rfl hne
  | cons c front =>
    rw [List.cons_append] at hnone
    rw [pieces, List.cons_append, piecesFrom, hnone, last_first]
    simp only [piecesFrom_inside hr (hfront c List.mem_cons_self) fun d hd => hfront d (List.mem_cons_of_mem c hd)]
    rfl

end Anchored

/-! ## Lines -/

section Lines

variable {σ α : Type} {f : σ → List Char} {g : σ → Option α} {r : Recognizer α} {ts : List (Option σ)}

/-- A token as it is written; one that is struck out leaves nothing. -/
def written (f : σ → List Char) (t : Option σ) : List Char := t.elim [] f

/-- What stands behind a token of a line: the other tokens, each behind a blank. -/
def followers (f : σ → List Char) (ts : List (Option σ)) : List Char := ts.flatMap fun t => ' ' :: written f t

/-- A text of tokens with single blanks between them. -/
def line (f : σ → List Char) (ts : List (Option σ)) : List Char := Text.join [' '] (ts.map (written f))

theorem followers_cons (t : Option σ) (ts : List (Option σ)) :
    followers f (t :: ts) = ' ' :: (written f t ++ followers f ts) := rfl

theorem line_cons (t : Option σ) : ∀ ts : List (Option σ), line f (t :: ts) = written f t ++ followers f ts
  | [] => (List.append_nil _).symm
  | t' :: ts => by
    rw [followers_cons, ← line_cons t' ts]
    simp [line, Text.join]

theorem atBreak_followers : AtBreak (followers f ts) := by
  cases ts with
  | nil => exact atBreak_nil
  | cons t ts => exact atBreak_blank _

/-- The tokens of a line are recognized as a whole or not at all. -/
structure Reads (r : Recognizer α) (f : σ → List Char) (g : σ → Option α) : Prop where
  anchored : Anchored r
  blank : ∀ cs, r none (' ' :: cs) = none
  token : ∀ t rest, AtBreak rest → r none (f t ++ rest) = (g t).map fun a => (a, (f t).length)

/-- Tokens are written without blanks. -/
def Unbroken (f : σ → List Char) : Prop := ∀ t, f t ≠ [] ∧ ∀ c ∈ f t, Text.isBlank c = false

/-- Strikes out the first token of which something is said, and tells what. -/
def strikeFirst (g : σ → Option α) : List (Option σ) → Option (α × List (Option σ))
  | [] => none
  | t :: ts =>
    match t.bind g with
    | some a => some (a, none :: ts)
    | none => (strikeFirst g ts).map fun (a, ts) => (a, t :: ts)

/-- The pieces of a token: itself as a whole, or its characters. -/
def tokenPieces (f : σ → List Char) (g : σ → Option α) (t : Option σ) : List (Piece α) :=
  match t.bind g with
  | some a => [.token a]
  | none => (written f t).map .char

variable (hr : Reads r f g) (hf : Unbroken f)
include hr

theorem Reads.blank_any (before : Option Char) (cs : List Char) : r before (' ' :: cs) = none := by
  cases before with
  | none => exact hr.blank cs
  | some b =>
    cases hb : Text.isBlank b with
    | false => exact hr.anchored.inside _ hb
    | true => rw [hr.anchored.behind _ hb, hr.blank]

theorem cutFirstFrom_blank (before : Option Char) (cs : List Char) : cutFirstFrom r before (' ' :: cs) =
    (cutFirst r cs).map fun (a, cs) => (a, ' ' :: cs) := by
  rw [cutFirstFrom, hr.blank_any]
  simp only [cutFirstFrom_behind hr.anchored isBlank_space]

theorem piecesFrom_blank (before : Option Char) (cs : List Char) :
    piecesFrom r before 0 (' ' :: cs) = .char ' ' :: pieces r cs := by
  rw [piecesFrom]
  simp only [hr.blank_any, piecesFrom_behind hr.anchored isBlank_space]

include hf

/-- A token at the front is cut out, or the search goes on behind it. -/
theorem cutFirst_written {rest : List Char} {found : Option (α × List Char)} (t : Option σ) (hrest : AtBreak rest)
    (h : ∀ before, cutFirstFrom r before rest = found) : cutFirst r (written f t ++ rest) =
      match t.bind g with
      | some a => some (a, rest)
      | none => found.map fun (a, cs) => (a, written f t ++ cs) := by
  cases t with
  | none => simp [written, cutFirst, h]
  | some t =>
    obtain ⟨hne, hunbroken⟩ := hf t
    have htoken := hr.token t rest hrest
    show cutFirst r (f t ++ rest) = match g t with
      | some a => some (a, rest)
      | none => found.map fun (a, cs) => (a, f t ++ cs)
    cases hg : g t with
    | none => rw [cutFirst_front hr.anchored hunbroken (by rw [htoken, hg]; rfl) hne, h]
    | some a =>
      rw [hg] at htoken
      rw [cutFirst_found (List.append_ne_nil_of_left_ne_nil hne rest) htoken, List.drop_left]

theorem cutFirstFrom_followers (before : Option Char) : ∀ ts : List (Option σ),
    cutFirstFrom r before (followers f ts) = (strikeFirst g ts).map fun (a, ts) => (a, followers f ts)
  | [] => rfl
  | t :: ts => by
    have hrest := fun before => cutFirstFrom_followers before ts
    rw [followers_cons, cutFirstFrom_blank hr, cutFirst_written hr hf t atBreak_followers hrest, strikeFirst]
    cases t.bind g with
    | some a => rfl
    | none =>
      simp only [Option.map_map]
      rfl

/-- **The first token of a line that is recognized is struck out.** -/
theorem cutFirst_line : ∀ ts : List (Option σ),
    cutFirst r (line f ts) = (strikeFirst g ts).map fun (a, ts) => (a, line f ts)
  | [] => rfl
  | t :: ts => by
    have hrest := fun before => cutFirstFrom_followers hr hf before ts
    rw [line_cons, cutFirst_written hr hf t atBreak_followers hrest, strikeFirst]
    cases t.bind g with
    | some a => simp only [Option.map_some, line_cons]; rfl
    | none =>
      simp only [Option.map_map]
      congr 1
      funext x
      simp [line_cons]

/-- A token at the front is found, or its characters are left as they are. -/
theorem pieces_written {rest : List Char} {ps : List (Piece α)} (t : Option σ) (hrest : AtBreak rest)
    (h : ∀ before, piecesFrom r before 0 rest = ps) : pieces r (written f t ++ rest) = tokenPieces f g t ++ ps := by
  cases t with
  | none => exact h none
  | some t =>
    obtain ⟨hne, hunbroken⟩ := hf t
    have htoken := hr.token t rest hrest
    show pieces r (f t ++ rest) = (match g t with
      | some a => [.token a]
      | none => (f t).map .char) ++ ps
    cases hg : g t with
    | none => rw [pieces_front hr.anchored hunbroken (by rw [htoken, hg]; rfl) hne, h]
    | some a =>
      rw [hg] at htoken
      rw [pieces_found hne htoken, h]
      rfl

theorem piecesFrom_followers (before : Option Char) : ∀ ts : List (Option σ),
    piecesFrom r before 0 (followers f ts) = ts.flatMap fun t => .char ' ' :: tokenPieces f g t
  | [] => rfl
  | t :: ts => by
    have hrest := fun before => piecesFrom_followers before ts
    rw [followers_cons, piecesFrom_blank hr, pieces_written hr hf t atBreak_followers hrest]
    rfl

theorem pieces_line_cons (t : Option σ) (ts : List (Option σ)) : pieces r (line f (t :: ts)) =
    tokenPieces f g t ++ ts.flatMap fun t => .char ' ' :: tokenPieces f g t := by
  rw [line_cons, pieces_written hr hf t atBreak_followers fun before => piecesFrom_followers hr hf before ts]

omit hr hf

theorem tokensOf_tokenPieces (t : Option σ) : tokensOf (tokenPieces f g t) = (t.bind g).toList := by
  unfold tokenPieces
  cases t.bind g with
  | some a => rfl
  | none => exact tokensOf_chars _

theorem filterMap_reduceOption_cons (t : Option σ) (ts : List (Option σ)) :
    (t :: ts).reduceOption.filterMap g = (t.bind g).toList ++ ts.reduceOption.filterMap g := by
  cases t with
  | none => rfl
  | some t =>
    rw [List.reduceOption_cons_of_some, List.filterMap_cons, Option.bind_some]
    cases g t <;> rfl

theorem fill_tokenPieces (t : Option σ) :
    fill [] (tokenPieces f g t) = written f (t.filter fun t => (g t).isNone) := by
  cases t with
  | none => rfl
  | some t =>
    show fill [] (match g t with
      | some a => [.token a]
      | none => (f t).map .char) = _
    cases hg : g t with
    | some a => simp [fill, written, Option.filter, hg]
    | none => simp [written, Option.filter, hg]

include hr hf

/-- **All tokens of a line that are recognized are found.** -/
theorem tokensOf_line (ts : List (Option σ)) : tokensOf (pieces r (line f ts)) = ts.reduceOption.filterMap g := by
  have htail : ∀ ts : List (Option σ), tokensOf (ts.flatMap fun t => .char ' ' :: tokenPieces f g t) =
      ts.reduceOption.filterMap g := by
    intro ts
    induction ts with
    | nil => rfl
    | cons t ts ih =>
      rw [List.flatMap_cons, tokensOf_append, ih]
      show tokensOf (tokenPieces f g t) ++ _ = _
      rw [tokensOf_tokenPieces, filterMap_reduceOption_cons]
  cases ts with
  | nil => rfl
  | cons t ts =>
    rw [pieces_line_cons hr hf, tokensOf_append, htail, tokensOf_tokenPieces, filterMap_reduceOption_cons]

/-- **All tokens of a line that are recognized are struck out.** -/
theorem fill_line (ts : List (Option σ)) : fill [] (pieces r (line f ts)) =
    line f (ts.map fun t => t.filter fun t => (g t).isNone) := by
  have htail : ∀ ts : List (Option σ), fill [] (ts.flatMap fun t => .char ' ' :: tokenPieces f g t) =
      followers f (ts.map fun t => t.filter fun t => (g t).isNone) := by
    intro ts
    induction ts with
    | nil => rfl
    | cons t ts ih =>
      rw [List.flatMap_cons, fill_append, ih]
      show ' ' :: fill [] (tokenPieces f g t) ++ _ = _
      rw [fill_tokenPieces]
      rfl
  cases ts with
  | nil => rfl
  | cons t ts => rw [pieces_line_cons hr hf, fill_append, htail, fill_tokenPieces, List.map_cons, line_cons]

omit hr

theorem words_written (t : Option σ) : Text.words (written f t) = (t.map f).toList := by
  cases t with
  | none => rfl
  | some t => exact Text.splitOn_of_noSep (hf t).1 (hf t).2

theorem words_append_followers (cs : List Char) : ∀ ts : List (Option σ),
    Text.words (cs ++ followers f ts) = Text.words cs ++ ts.reduceOption.map f
  | [] => by simp [followers, List.reduceOption]
  | t :: ts => by
    have hsep : Text.words (cs ++ ' ' :: (written f t ++ followers f ts)) =
        Text.words cs ++ Text.words (written f t ++ followers f ts) :=
      Text.splitOn_append_sep (by decide) cs _
    rw [followers_cons, hsep, words_append_followers (written f t) ts, words_written hf]
    cases t <;> rfl

/-- **What is left of a line are the tokens that are not struck out.** -/
theorem squash_line (ts : List (Option σ)) : Text.squash (line f ts) = Text.join [' '] (ts.reduceOption.map f) := by
  rw [Text.squash]
  congr 1
  cases ts with
  | nil => rfl
  | cons t ts =>
    rw [line_cons, words_append_followers hf, words_written hf]
    cases t <;> rfl

/-! ## Taking out all tokens of a kind -/

section Kept

variable {kept : σ → Bool} {ts : List σ}

omit hf

theorem reduceOption_guard (kept : σ → Bool) (ts : List σ) :
    (ts.map (Option.guard kept)).reduceOption = ts.filter kept := by
  rw [List.reduceOption, List.filterMap_map, ← List.filterMap_eq_filter]
  rfl

include hr hf

/-- Tokens that are kept so far are all found. -/
theorem tokensOf_kept (hkept : ∀ t, (g t).isSome = true → kept t = true) :
    tokensOf (pieces r (line f (ts.map (Option.guard kept)))) = ts.filterMap g := by
  rw [tokensOf_line hr hf, reduceOption_guard, List.filterMap_filter]
  refine List.filterMap_congr fun t _ => ?_
  split
  · rfl
  · rename_i hlost
    cases hg : g t with
    | none => rfl
    | some a => exact absurd (hkept t (by rw [hg]; rfl)) hlost

theorem fill_kept : fill [] (pieces r (line f (ts.map (Option.guard kept)))) =
    line f (ts.map (Option.guard fun t => kept t && (g t).isNone)) := by
  rw [fill_line hr hf, List.map_map]
  congr 2
  funext t
  cases hk : kept t <;> cases hg : g t <;> simp [Option.guard, Option.filter, hk, hg]

end Kept

end Lines

/-! ## Plain words -/

/-- A word of a line that is no filter: no blank, quote or colon in it. -/
structure PlainWord where
  chars : List Char
  bare : IsBare chars
  noColon : ':' ∉ chars

end Shelfmark.Query
