import Shelfmark.Pattern.Case
import Shelfmark.Text.Search

/-!
# Finding tokens in a query

A token is recognized at a place of a text from the character before the place and the text behind it.

* `pieces`: a text cut into its tokens, found from left to right without overlap, and the characters between them.
* `cutFirst`: the first token of a text, and the text without it.
* `keyed`: the tokens that consist of a word, a colon and a value, such as `domain:example.org`.
-/

namespace Shelfmark.Query

/-- Recognizes a token: from the character before the place, if there is one, and the text from the place on to what
the token says and its length. -/
abbrev Recognizer (α : Type) := Option Char → List Char → Option (α × Nat)

/-- A token, or a character between tokens. -/
inductive Piece (α : Type)
  | token (a : α)
  | char (c : Char)
  deriving DecidableEq, Repr

/-- The pieces of a text behind the first `skip` characters; `before` is the character before the text. -/
def piecesFrom {α : Type} (r : Recognizer α) (before : Option Char) (skip : Nat) : List Char → List (Piece α)
  | [] => []
  | c :: rest =>
    match skip with
    | skip + 1 => piecesFrom r (some c) skip rest
    | 0 =>
      match r before (c :: rest) with
      | some (a, n) => .token a :: piecesFrom r (some c) (n - 1) rest
      | none => .char c :: piecesFrom r (some c) 0 rest

/-- The pieces of a text. -/
def pieces {α : Type} (r : Recognizer α) (cs : List Char) : List (Piece α) := piecesFrom r none 0 cs

/-- What a token says. -/
def Piece.token? {α : Type} : Piece α → Option α
  | token a => some a
  | char _ => none

/-- The tokens among some pieces. -/
def tokensOf {α : Type} (ps : List (Piece α)) : List α := ps.filterMap Piece.token?

/-- The text of some pieces, with a filler in place of every token. -/
def fill {α : Type} (filler : List Char) (ps : List (Piece α)) : List Char :=
  ps.flatMap fun
    | .token _ => filler
    | .char c => [c]

/-- The first token of a text and the text without it; `before` is the character before the text. -/
def cutFirstFrom {α : Type} (r : Recognizer α) (before : Option Char) : List Char → Option (α × List Char)
  | [] => none
  | c :: rest =>
    match r before (c :: rest) with
    | some (a, n) => some (a, (c :: rest).drop n)
    | none => (cutFirstFrom r (some c) rest).map fun (a, cs) => (a, c :: cs)

/-- The first token of a text, and the text without it. -/
def cutFirst {α : Type} (r : Recognizer α) (cs : List Char) : Option (α × List Char) := cutFirstFrom r none cs

/-! ## Words and values -/

/-- A place is at the beginning of the text or behind a blank. -/
def atStart (before : Option Char) : Bool := before.all Text.isBlank

/-- The text behind a word at its front, whatever the case of the letters. -/
def afterWord? : List Char → List Char → Option (List Char)
  | [], cs => some cs
  | w :: ws, c :: cs => if Pattern.sameLetter false w.toNat c.toNat then afterWord? ws cs else none
  | _ :: _, [] => none

/-- The text behind a quotation at the front of a text, and what stands between its quotes: something, but no
quote. -/
def quoted? : List Char → Option (List Char × List Char)
  | '"' :: rest =>
    let inside := rest.takeWhile (· != '"')
    match rest.dropWhile (· != '"') with
    | _ :: behind => if inside.isEmpty then none else some (inside, behind)
    | [] => none
  | _ => none

/-- A value at the front of a text, with its length: a quotation, or else everything up to the next blank. -/
def value? (cs : List Char) : Option (List Char × Nat) :=
  match quoted? cs with
  | some (inside, _) => some (inside, inside.length + 2)
  | none =>
    let run := cs.takeWhile fun c => !Text.isBlank c
    if run.isEmpty then none else some (run, run.length)

/-- A place where a word ends: the text is over or goes on with no word character. -/
def wordEnds : List Char → Bool
  | [] => true
  | c :: _ => !Text.isWordChar c

/-- One of some words at the front of a text, whatever the case of the letters, if the word ends there, as it is
written and with its length. -/
def oneOf? (choices : List (List Char)) (cs : List Char) : Option (List Char × Nat) :=
  choices.findSome? fun w =>
    match afterWord? w cs with
    | some rest => if wordEnds rest then some (cs.take w.length, w.length) else none
    | none => none

/-- A word, a colon and a value, at the beginning of the text or behind a blank. -/
def keyed {α : Type} (word : List Char) (value : List Char → Option (α × Nat)) : Recognizer α := fun before cs =>
  if atStart before then
    match afterWord? (word ++ [':']) cs with
    | some rest => (value rest).map fun (a, n) => (a, word.length + 1 + n)
    | none => none
  else none

/-- One of some phrases, at the beginning of the text or behind a blank. -/
def flagged (phrases : List (List Char)) : Recognizer Unit := fun before cs =>
  if atStart before then (oneOf? phrases cs).map fun (_, n) => ((), n) else none

end Shelfmark.Query
