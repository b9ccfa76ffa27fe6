import Shelfmark.Pattern.Reader
import Shelfmark.Query.Scan

/-!
# Free text

The free text of a query holds patterns between slashes, phrases in quotes, and words.  A plus sign in front of a
phrase or a word asks for it, a minus sign excludes it.

* `TextQuery`: what a free text asks for.
* `TextQuery.parse`: reads a free text.
* `compilePattern`: the pattern of a token, nothing if it is malformed.
-/

namespace Shelfmark.Query

/-- What a free text asks for; all terms are in lower case. -/
structure TextQuery where
  /-- Terms and phrases that must occur. -/
  positive : List String := []
  /-- Terms and phrases that must not occur. -/
  negative : List String := []
  /-- Phrases that must occur. -/
  phrases : List String := []
  /-- Terms of which one must occur, if there are any. -/
  regular : List String := []
  /-- Patterns that must match. -/
  patterns : List Pattern := []
  deriving Inhabited, Repr

namespace TextQuery

/-- There is more than regular terms. -/
def hasModifiers (q : TextQuery) : Bool :=
  !q.positive.isEmpty || !q.negative.isEmpty || !q.phrases.isEmpty || !q.patterns.isEmpty

/-- Nothing is asked for. -/
def isEmpty (q : TextQuery) : Bool := !(q.hasModifiers || !q.regular.isEmpty)

end TextQuery

/-! ## Patterns -/

/-- A letter behind a pattern. -/
def isFlag (c : Char) : Bool := ['g', 'i', 'm', 's', 'u', 'v', 'y'].contains c

/-- The modes that some letters stand for; letters without a meaning here are ignored, and without any letter the
case of letters is ignored. -/
def modesOf (flags : List Char) : Modes :=
  let flags := if flags.isEmpty then ['i'] else flags
  { ignoreCase := flags.contains 'i', multiline := flags.contains 'm', dotAll := flags.contains 's' }

/-- The pattern with a source and some flags: nothing if it is malformed, a refusal if it asks for something
impossible. -/
def compilePattern (host : Host) (source flags : List Char) : Except Pattern.Refusal (Option Pattern) :=
  match Pattern.compile host (modesOf flags) (String.ofList source) with
  | .ok p => .ok (some p)
  | .error .malformed => .ok none
  | .error r => .error r

/-- A pattern between slashes, and the letters behind it. -/
def patternToken : Recognizer (List Char × List Char)
  | _, '/' :: rest =>
    let source := rest.takeWhile (· != '/')
    match rest.dropWhile (· != '/') with
    | _ :: behind =>
      let flags := behind.takeWhile isFlag
      if source.isEmpty then none else some ((source, flags), source.length + flags.length + 2)
    | [] => none
  | _, _ => none

/-! ## Phrases and words -/

/-- Whether a term is asked for, excluded, or one of several. -/
inductive Sign
  | plus
  | minus
  | none
  deriving DecidableEq, Repr

/-- The sign at the front of a text, and the rest. -/
def splitSign : List Char → Sign × List Char
  | '+' :: rest => (.plus, rest)
  | '-' :: rest => (.minus, rest)
  | cs => (.none, cs)

/-- A phrase in quotes with the sign in front of it. -/
def phraseToken : Recognizer (Sign × List Char) := fun _ cs =>
  let (sign, rest) := splitSign cs
  (quoted? rest).map fun (inside, behind) => ((sign, inside), cs.length - behind.length)

/-- A word with the sign in front of it; nothing for a sign that stands alone. -/
def wordTerm (w : List Char) : Option (Sign × List Char) :=
  let (sign, rest) := splitSign w
  if rest.isEmpty then none else some (sign, rest)

/-- The terms with a sign, in lower case. -/
def withSign (sign : Sign) (terms : List (Sign × List Char)) : List String :=
  (terms.filter fun t => t.1 == sign).map fun t => String.ofList (Text.lowerChars t.2)

/-- What a text without patterns asks for. -/
def parsePlain (cs : List Char) : TextQuery :=
  let ps := pieces phraseToken cs
  let phrases := tokensOf ps
  let words := (Text.words (fill [' '] ps)).filterMap wordTerm
  { positive := withSign .plus phrases ++ withSign .plus words
    negative := withSign .minus phrases ++ withSign .minus words
    phrases := withSign .none phrases
    regular := withSign .none words }

/-- What a free text asks for. -/
def TextQuery.parse (host : Host) (text : String) : Except Pattern.Refusal TextQuery := do
  let ps := pieces patternToken text.toList
  let patterns ← (tokensOf ps).mapM fun (source, flags) => compilePattern host source flags
  return { parsePlain (fill [' '] ps) with patterns := patterns.filterMap id }

end Shelfmark.Query
