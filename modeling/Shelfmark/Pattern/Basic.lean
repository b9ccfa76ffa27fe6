/-!
# Patterns

The syntax of the regular expressions that a query may hold, and how many characters they can match.

* `Pattern`: a sequence of nodes with the modes that hold for the whole of it.
* `Node.width`: the least and the greatest number of characters that a node matches.
-/

namespace Shelfmark

/-- The modes of a pattern or of a part of it. -/
structure Modes where
  ignoreCase : Bool := false
  multiline : Bool := false
  dotAll : Bool := false
  verbose : Bool := false
  ascii : Bool := false
  unicode : Bool := false
  template : Bool := false
  deriving DecidableEq, Repr, Inhabited

namespace Modes

/-- The modes that one of two settings turns on. -/
def union (a b : Modes) : Modes :=
  ⟨a.ignoreCase || b.ignoreCase, a.multiline || b.multiline, a.dotAll || b.dotAll, a.verbose || b.verbose,
    a.ascii || b.ascii, a.unicode || b.unicode, a.template || b.template⟩

/-- The modes of the first setting that the second does not hold. -/
def without (a b : Modes) : Modes :=
  ⟨a.ignoreCase && !b.ignoreCase, a.multiline && !b.multiline, a.dotAll && !b.dotAll, a.verbose && !b.verbose,
    a.ascii && !b.ascii, a.unicode && !b.unicode, a.template && !b.template⟩

/-- No mode is on. -/
def isNone (a : Modes) : Bool := a == {}

/-- Two settings have a mode in common. -/
def meets (a b : Modes) : Bool :=
  (a.ignoreCase && b.ignoreCase) || (a.multiline && b.multiline) || (a.dotAll && b.dotAll) ||
    (a.verbose && b.verbose) || (a.ascii && b.ascii) || (a.unicode && b.unicode) || (a.template && b.template)

/-- The modes inside a group: those around it and those it turns on, less those it turns off; choosing a character
repertoire replaces the one around. -/
def inGroup (outer add del : Modes) : Modes :=
  let outer := if add.ascii || add.unicode then { outer with ascii := false, unicode := false } else outer
  (outer.union add).without del

end Modes

namespace Pattern

/-- A class of characters with a letter of its own. -/
inductive CharClass
  | digit
  | space
  | word
  deriving DecidableEq, Repr

/-- A member of a character set: a code point, a range of code points, or a class or its complement. -/
inductive SetItem
  | point (n : Nat)
  | range (low high : Nat)
  | cls (c : CharClass) (negated : Bool)
  deriving DecidableEq, Repr

/-- A place between characters. -/
inductive Anchor
  | lineStart
  | lineEnd
  | textStart
  | textEnd
  | boundary
  | noBoundary
  deriving DecidableEq, Repr

/-- How a repetition chooses its number of rounds: as many as possible, as few as possible, or as many as possible
for good. -/
inductive Greed
  | greedy
  | lazy
  | possessive
  deriving DecidableEq, Repr

/-- A part of a pattern. -/
inductive Node
  | point (n : Nat)
  | otherThan (n : Nat)
  | any
  | set (negated : Bool) (items : List SetItem)
  | anchor (a : Anchor)
  | branch (alternatives : List (List Node))
  | group (index : Option Nat) (add del : Modes) (body : List Node)
  | repeated (greed : Greed) (least : Nat) (most : Option Nat) (body : List Node)
  | again (index : Nat)
  | look (behind : Bool) (negated : Bool) (body : List Node)
  | atomic (body : List Node)
  | whether (index : Nat) (yes no : List Node)
  deriving Inhabited, Repr

/-- The least and the greatest number of characters matched; `widthCap` stands for no bound. -/
abbrev Width := Nat × Nat

/-- The number that stands for an unbounded width. -/
def widthCap : Nat := Nat.pow 2 64

/-- The widths of the groups by number, none for a group that is still open. -/
abbrev GroupWidths := List (Option Width)

mutual
/-- The least and the greatest number of characters that a node matches. -/
def nodeWidth (groups : GroupWidths) : Node → Width
  | .point _ | .otherThan _ | .any | .set _ _ => (1, 1)
  | .anchor _ | .look _ _ _ => (0, 0)
  | .branch alternatives => branchWidth groups widthCap 0 alternatives
  | .group _ _ _ body | .atomic body => seqWidth groups body
  | .repeated _ least most body =>
    let (i, j) := seqWidth groups body
    match most with
    | some m => (i * least, j * m)
    | none => (i * least, if j == 0 then 0 else widthCap)
  | .again index => ((groups[index]?).join).getD (0, 0)
  | .whether _ yes no =>
    let (i, j) := seqWidth groups yes
    let (l, h) := seqWidth groups no
    (min i l, max j h)

/-- The width of a sequence of nodes. -/
def seqWidth (groups : GroupWidths) : List Node → Width
  | [] => (0, 0)
  | n :: rest =>
    let (i, j) := nodeWidth groups n
    let (l, h) := seqWidth groups rest
    (min widthCap (i + l), min widthCap (j + h))

/-- The least of the least and the greatest of the greatest widths of some alternatives. -/
def branchWidth (groups : GroupWidths) (low high : Nat) : List (List Node) → Width
  | [] => (low, high)
  | a :: rest =>
    let (l, h) := seqWidth groups a
    branchWidth groups (min low l) (max high h) rest
end

mutual
/-- Every look behind within a node has a fixed width, and not a huge one. -/
def nodeLooksFixed (groups : GroupWidths) : Node → Bool
  | .point _ | .otherThan _ | .any | .set _ _ | .anchor _ | .again _ => true
  | .branch alternatives => branchLooksFixed groups alternatives
  | .group _ _ _ body | .atomic body | .repeated _ _ _ body => seqLooksFixed groups body
  | .look behind _ body =>
    (if behind then
      let (l, h) := seqWidth groups body
      l == h && l < Nat.pow 2 32
    else true) && seqLooksFixed groups body
  | .whether _ yes no => seqLooksFixed groups yes && seqLooksFixed groups no

/-- Every look behind within a sequence has a fixed width. -/
def seqLooksFixed (groups : GroupWidths) : List Node → Bool
  | [] => true
  | n :: rest => nodeLooksFixed groups n && seqLooksFixed groups rest

/-- Every look behind within some alternatives has a fixed width. -/
def branchLooksFixed (groups : GroupWidths) : List (List Node) → Bool
  | [] => true
  | a :: rest => seqLooksFixed groups a && branchLooksFixed groups rest
end

mutual
/-- A repetition occurs within a node. -/
def nodeRepeats : Node → Bool
  | .point _ | .otherThan _ | .any | .set _ _ | .anchor _ | .again _ => false
  | .branch alternatives => branchRepeats alternatives
  | .group _ _ _ body | .atomic body | .look _ _ body => seqRepeats body
  | .repeated _ _ _ _ => true
  | .whether _ yes no => seqRepeats yes || seqRepeats no

/-- A repetition occurs within a sequence. -/
def seqRepeats : List Node → Bool
  | [] => false
  | n :: rest => nodeRepeats n || seqRepeats rest

/-- A repetition occurs within some alternatives. -/
def branchRepeats : List (List Node) → Bool
  | [] => false
  | a :: rest => seqRepeats a || branchRepeats rest
end

/-- Why a pattern is refused: it breaks the syntax, a number of rounds is too large, a number has too many digits,
it asks for two character repertoires at once, or its groups are nested too deep. -/
inductive Refusal
  | malformed
  | tooManyRounds
  | numberTooLong
  | conflictingModes
  | tooDeep
  deriving DecidableEq, Repr

end Pattern

/-- A regular expression: its text, its modes, its nodes and the widths of its groups. -/
structure Pattern where
  source : String
  modes : Modes
  groups : Pattern.GroupWidths
  nodes : List Pattern.Node
  deriving Inhabited, Repr

end Shelfmark
