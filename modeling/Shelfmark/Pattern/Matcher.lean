import Shelfmark.Pattern.Basic
import Shelfmark.Pattern.Case
import Shelfmark.Text.Property

/-!
# Matching patterns

Backtracking search for a pattern in a text.  Every node is a matcher: given a position and what the groups hold, it
offers the positions behind its matches one after the other to a continuation, until the continuation accepts.

* `Pattern.searchIn`: some part of a text matches the pattern.
-/

namespace Shelfmark.Pattern

/-- What a group holds: the position where it last began and the one where it last ended. -/
structure Capture where
  index : Nat
  start : Nat
  stop : Option Nat

/-- What the groups hold, the latest entries first. -/
abbrev Captures := List Capture

/-- The entry of a group. -/
def captureOf? (caps : Captures) (index : Nat) : Option Capture := caps.find? fun c => c.index == index

/-- The span that a group holds: it has ended, and not before its last beginning. -/
def span? (caps : Captures) (index : Nat) : Option (Nat × Nat) :=
  match captureOf? caps index with
  | some ⟨_, start, some stop⟩ => if stop < start then none else some (start, stop)
  | _ => none

/-- Notes that a group begins. -/
def openCapture (caps : Captures) (index pos : Nat) : Captures :=
  ⟨index, pos, (captureOf? caps index).bind (·.stop)⟩ :: caps

/-- Notes that a group ends. -/
def closeCapture (caps : Captures) (index pos : Nat) : Captures :=
  match captureOf? caps index with
  | some c => ⟨index, c.start, some pos⟩ :: caps
  | none => caps

/-- A matcher's answer: the position and the captures that the last continuation accepted with. -/
abbrev Outcome := Option (Nat × Captures)

/-- What follows: it accepts a position with captures, or refuses. -/
abbrev Continuation := Nat → Captures → Outcome

/-- A matcher: from a position with captures, it offers positions to a continuation. -/
abbrev Matcher := Nat → Captures → Continuation → Outcome

/-- The character belongs to a class; with `ascii` only characters of ASCII do. -/
def CharClass.holds (ascii : Bool) (cls : CharClass) (c : Char) : Bool :=
  (!ascii || c.toNat < 128) &&
    match cls with
    | .digit => Text.isDecimal c
    | .space => if ascii then c == ' ' || (9 ≤ c.toNat && c.toNat ≤ 13) else Text.isBlank c
    | .word => Text.isWordChar c

/-- The character is one that an item of a set stands for. -/
def SetItem.holds (m : Modes) (c : Char) : SetItem → Bool
  | .point n => if m.ignoreCase then sameLetter m.ascii n c.toNat else n == c.toNat
  | .range low high =>
    if m.ignoreCase then inFoldedRange m.ascii low high c.toNat else low ≤ c.toNat && c.toNat ≤ high
  | .cls kind negated => kind.holds m.ascii c != negated

/-- The character before a position is a word character. -/
def wordAt (ascii : Bool) (text : Array Char) (pos : Nat) : Bool :=
  match text[pos]? with
  | some c => CharClass.word.holds ascii c
  | none => false

/-- The position is a place of a kind. -/
def Anchor.holds (m : Modes) (text : Array Char) (pos : Nat) : Anchor → Bool
  | .textStart => pos == 0
  | .textEnd => pos == text.size
  | .lineStart => pos == 0 || (m.multiline && text[pos - 1]? == some '\n')
  | .lineEnd =>
    pos == text.size || (text[pos]? == some '\n' && (m.multiline || pos + 1 == text.size))
  | .boundary => atBoundary
  | .noBoundary => !atBoundary && text.size != 0
where
  /-- A word begins or ends at the position. -/
  atBoundary : Bool := (0 < pos && wordAt m.ascii text (pos - 1)) != wordAt m.ascii text pos

/-- One character that passes a test. -/
def one (text : Array Char) (test : Char → Bool) : Matcher := fun pos caps k =>
  match text[pos]? with
  | some c => if test c then k (pos + 1) caps else none
  | none => none

/-- The characters of a span, one after the other. -/
def sameSpan (m : Modes) (text : Array Char) (start count : Nat) : Matcher := fun pos caps k =>
  let alike := fun (i : Nat) =>
    match text[start + i]?, text[pos + i]? with
    | some a, some b =>
      if m.ignoreCase then foldPoint m.ascii a.toNat == foldPoint m.ascii b.toNat else a == b
    | _, _ => false
  if (List.range count).all alike then k (pos + count) caps else none

/-- As many rounds as possible: after the least number, a further round is tried unless the round before matched
nothing, and then what follows.  `budget` bounds the rounds. -/
def greedyRounds (body : Matcher) (least : Nat) (most : Option Nat) :
    Nat → Nat → Option Nat → Matcher
  | 0, _, _ => fun _ _ _ => none
  | budget + 1, count, last => fun pos caps k =>
    if count < least then
      body pos caps fun p c => greedyRounds body least most budget (count + 1) last p c k
    else if (most.all fun m => count < m) && last != some pos then
      match body pos caps fun p c => greedyRounds body least most budget (count + 1) (some pos) p c k with
      | some r => some r
      | none => k pos caps
    else k pos caps

/-- As few rounds as possible: after the least number, what follows is tried before a further round. -/
def lazyRounds (body : Matcher) (least : Nat) (most : Option Nat) :
    Nat → Nat → Option Nat → Matcher
  | 0, _, _ => fun _ _ _ => none
  | budget + 1, count, last => fun pos caps k =>
    if count < least then
      body pos caps fun p c => lazyRounds body least most budget (count + 1) last p c k
    else
      match k pos caps with
      | some r => some r
      | none =>
        if (most.all fun m => count < m) && last != some pos then
          body pos caps fun p c => lazyRounds body least most budget (count + 1) (some pos) p c k
        else none

/-- As many rounds as possible for good: each round keeps its first match, and what follows is tried once. -/
def possessiveRounds (body : Matcher) (least : Nat) (most : Option Nat) :
    Nat → Nat → Option Nat → Matcher
  | 0, _, _ => fun _ _ _ => none
  | budget + 1, count, last => fun pos caps k =>
    if count < least then
      match body pos caps fun p c => some (p, c) with
      | some (p, c) => possessiveRounds body least most budget (count + 1) last p c k
      | none => none
    else if (most.all fun m => count < m) && last != some pos then
      match body pos caps fun p c => some (p, c) with
      | some (p, c) => possessiveRounds body least most budget (count + 1) (some pos) p c k
      | none => k pos caps
    else k pos caps

/-- The rounds of a repetition. -/
def rounds (greed : Greed) (body : Matcher) (least : Nat) (most : Option Nat) (size : Nat) : Matcher :=
  match greed with
  | .greedy => greedyRounds body least most (least + size + 3) 0 none
  | .lazy => lazyRounds body least most (least + size + 3) 0 none
  | .possessive => possessiveRounds body least most (least + size + 3) 0 none

/-- Looks ahead or behind: the body matches here, or ends here after a fixed number of characters; its captures are
kept unless the look is negated. -/
def lookAround (body : Matcher) (back : Nat) (negated : Bool) : Matcher := fun pos caps k =>
  let found := if back ≤ pos then body (pos - back) caps fun p c => some (p, c) else none
  match found, negated with
  | some (_, c), false => k pos c
  | none, true => k pos caps
  | _, _ => none

mutual
/-- The matcher of a node. -/
def nodeMatcher (groups : GroupWidths) (text : Array Char) (m : Modes) : Node → Matcher
  | .point n => one text fun c => if m.ignoreCase then sameLetter m.ascii n c.toNat else n == c.toNat
  | .otherThan n => one text fun c => !(if m.ignoreCase then sameLetter m.ascii n c.toNat else n == c.toNat)
  | .any => one text fun c => m.dotAll || c != '\n'
  | .set negated items => one text fun c => (items.any (SetItem.holds m c)) != negated
  | .anchor a => fun pos caps k => if a.holds m text pos then k pos caps else none
  | .branch alternatives => branchMatcher groups text m alternatives
  | .group index add del body => fun pos caps k =>
    let inner := m.inGroup add del
    match index with
    | some i => seqMatcher groups text inner body pos (openCapture caps i pos) fun p c => k p (closeCapture c i p)
    | none => seqMatcher groups text inner body pos caps k
  | .repeated greed least most body =>
    rounds greed (seqMatcher groups text m body) least most text.size
  | .again index => fun pos caps k =>
    match span? caps index with
    | some (start, stop) => sameSpan m text start (stop - start) pos caps k
    | none => none
  | .look behind negated body =>
    lookAround (seqMatcher groups text m body) (if behind then (seqWidth groups body).1 else 0) negated
  | .atomic body => fun pos caps k =>
    match seqMatcher groups text m body pos caps fun p c => some (p, c) with
    | some (p, c) => k p c
    | none => none
  | .whether index yes no => fun pos caps k =>
    if (span? caps index).isSome then seqMatcher groups text m yes pos caps k
    else seqMatcher groups text m no pos caps k

/-- The matcher of a sequence: each node continues with the next. -/
def seqMatcher (groups : GroupWidths) (text : Array Char) (m : Modes) : List Node → Matcher
  | [] => fun pos caps k => k pos caps
  | n :: rest => fun pos caps k =>
    nodeMatcher groups text m n pos caps fun p c => seqMatcher groups text m rest p c k

/-- The matcher of alternatives: the first that succeeds. -/
def branchMatcher (groups : GroupWidths) (text : Array Char) (m : Modes) : List (List Node) → Matcher
  | [] => fun _ _ _ => none
  | a :: rest => fun pos caps k =>
    match seqMatcher groups text m a pos caps k with
    | some r => some r
    | none => branchMatcher groups text m rest pos caps k
end

/-- The item is a class of characters. -/
def SetItem.isClass : SetItem → Bool
  | .cls _ _ => true
  | _ => false

mutual
/-- The character set that a node begins with, unless it mixes letters with classes while case is ignored. -/
def nodeFront? (m : Modes) : Node → Option (Bool × List SetItem)
  | .set negated items => if m.ignoreCase && !items.all SetItem.isClass then none else some (negated, items)
  | .group _ add del body => seqFront? (m.inGroup add del) body
  | _ => none

/-- The character set that a sequence begins with. -/
def seqFront? (m : Modes) : List Node → Option (Bool × List SetItem)
  | [] => none
  | n :: _ => nodeFront? m n
end

/-- A match may begin at the position: a character set at the very front of a pattern that matches no empty text
admits the character there under the modes of the whole pattern as well. -/
def mayBegin (p : Pattern) (text : Array Char) (pos : Nat) : Bool :=
  match seqFront? p.modes p.nodes with
  | some (negated, items) =>
    (seqWidth p.groups p.nodes).1 == 0 ||
      (text[pos]?).any fun c => (items.any (SetItem.holds { ascii := p.modes.ascii } c)) != negated
  | none => true

/-- Some part of a text matches the pattern. -/
def searchIn (p : Pattern) (text : String) : Bool :=
  let chars := text.toList.toArray
  let run := seqMatcher p.groups chars p.modes p.nodes
  (List.range (chars.size + 1)).any fun pos =>
    p.mayBegin chars pos && (run pos [] fun q c => some (q, c)).isSome

end Shelfmark.Pattern
