import Shelfmark.Pattern.Basic
import Shelfmark.Pattern.Name
import Shelfmark.Decimal.Numeral
import Shelfmark.Host

/-!
# Reading patterns

`Pattern.compile` reads the text of a regular expression, or says why it is refused.

The text is first cut into tokens, a backslash together with the character behind it.  Alternatives, sequences and
groups are then read by recursive descent; what is read once and needed later (names, widths of groups, modes) is kept
in a `Ledger`.
-/

namespace Shelfmark.Pattern

/-- A token of a pattern: a character, a backslash and a character, or a lone backslash at the end. -/
inductive Token
  | char (c : Char)
  | escape (c : Char)
  | dangling
  deriving DecidableEq, Repr

/-- Cuts a text into tokens. -/
def tokens : List Char → List Token
  | [] => []
  | ['\\'] => [.dangling]
  | '\\' :: c :: rest => .escape c :: tokens rest
  | c :: rest => .char c :: tokens rest

/-- What is known about the groups and modes of a pattern while it is read. -/
structure Ledger where
  modes : Modes
  names : List (String × Nat)
  widths : GroupWidths
  lookBehind : Option Nat
  references : List Nat

namespace Ledger

/-- The ledger before anything is read. -/
def start (modes : Modes) : Ledger := ⟨modes, [], [none], none, []⟩

/-- A group has been read to its end. -/
def isClosed (l : Ledger) (index : Nat) : Bool := ((l.widths[index]?).join).isSome

/-- Inside a look behind, a reference to a group must name one that was closed before the look began. -/
def mayRefer (l : Ledger) (index : Nat) : Bool :=
  match l.lookBehind with
  | none => true
  | some first => l.isClosed index && index < first

/-- Opens a group, under a name if it has one; a name may be used once. -/
def openGroup? (l : Ledger) (name : Option String) : Option (Nat × Ledger) :=
  let index := l.widths.length
  let l := { l with widths := l.widths ++ [none] }
  match name with
  | none => some (index, l)
  | some n => if (l.names.lookup n).isSome then none else some (index, { l with names := (n, index) :: l.names })

/-- Closes a group. -/
def closeGroup (l : Ledger) (index : Nat) (body : List Node) : Ledger :=
  { l with widths := l.widths.set index (some (seqWidth l.widths body)) }

end Ledger

/-! ## Escapes -/

/-- The value of a hexadecimal digit. -/
def hexDigit? (c : Char) : Option Nat :=
  if c.isDigit then some (c.toNat - 48)
  else if 'a' ≤ c && c ≤ 'f' then some (c.toNat - 87)
  else if 'A' ≤ c && c ≤ 'F' then some (c.toNat - 55)
  else none

/-- An octal digit. -/
def isOctal (c : Char) : Bool := '0' ≤ c && c ≤ '7'

/-- At most `count` characters of a class from the front of some tokens. -/
def takeChars (p : Char → Bool) : Nat → List Token → List Char × List Token
  | count + 1, .char c :: rest =>
    if p c then
      let (cs, r) := takeChars p count rest
      (c :: cs, r)
    else ([], .char c :: rest)
  | _, ts => ([], ts)

/-- The number that characters stand for in a base. -/
def inBase (base : Nat) (cs : List Char) : Nat := cs.foldl (fun n c => base * n + (hexDigit? c).getD 0) 0

/-- A code point of exactly `count` hexadecimal digits. -/
def hexEscape (count : Nat) (ts : List Token) : Except Refusal (Nat × List Token) :=
  let (cs, r) := takeChars (fun c => (hexDigit? c).isSome) count ts
  let n := inBase 16 cs
  if cs.length == count && n < 0x110000 then .ok (n, r) else .error .malformed

/-- The control character of a letter escape. -/
def controlEscape? (c : Char) : Option Nat :=
  match c with
  | 'a' => some 7
  | 'b' => some 8
  | 'f' => some 12
  | 'n' => some 10
  | 'r' => some 13
  | 't' => some 9
  | 'v' => some 11
  | '\\' => some 92
  | _ => none

/-- The class of a letter escape. -/
def classEscape? (c : Char) : Option SetItem :=
  match c with
  | 'd' => some (.cls .digit false)
  | 'D' => some (.cls .digit true)
  | 's' => some (.cls .space false)
  | 'S' => some (.cls .space true)
  | 'w' => some (.cls .word false)
  | 'W' => some (.cls .word true)
  | _ => none

/-- The anchor of a letter escape. -/
def anchorEscape? (c : Char) : Option Anchor :=
  match c with
  | 'A' => some .textStart
  | 'b' => some .boundary
  | 'B' => some .noBoundary
  | 'Z' => some .textEnd
  | _ => none

/-- The characters of tokens up to a character; nothing if there are none or the character is missing. -/
def untilChar (stop : Char) (ts : List Token) : Except Refusal (List Char × List Token) :=
  let rec go : List Token → Option (List Char × List Token)
    | [] => none
    | .char c :: rest => if c == stop then some ([], rest) else (go rest).map fun (cs, r) => (c :: cs, r)
    | .escape c :: rest => (go rest).map fun (cs, r) => ('\\' :: c :: cs, r)
    | .dangling :: _ => none
  match go ts with
  | some ([], _) | none => .error .malformed
  | some r => .ok r

/-- A code point by the name of its character in braces. -/
def nameEscape (host : Host) (ts : List Token) : Except Refusal (Nat × List Token) :=
  match ts with
  | .char '{' :: rest => do
    let (name, r) ← untilChar '}' rest
    match host.charNamed (String.ofList name) with
    | some c => .ok (c.toNat, r)
    | none => .error .malformed
  | _ => .error .malformed

/-- A code point by its hexadecimal digits, by its name or as itself; letters without a meaning are refused. -/
def pointEscape (host : Host) (c : Char) (ts : List Token) : Except Refusal (Nat × List Token) :=
  if c == 'x' then hexEscape 2 ts
  else if c == 'N' then nameEscape host ts
  else if c == 'u' then hexEscape 4 ts
  else if c == 'U' then hexEscape 8 ts
  else if c.toNat < 128 && c.isAlpha then .error .malformed
  else .ok (c.toNat, ts)

/-- An escape inside a character set. -/
def setEscape (host : Host) (c : Char) (ts : List Token) : Except Refusal (SetItem × List Token) :=
  match controlEscape? c, classEscape? c with
  | some n, _ => .ok (.point n, ts)
  | none, some item => .ok (item, ts)
  | none, none =>
    if isOctal c then
      let (cs, r) := takeChars isOctal 2 ts
      let n := inBase 8 (c :: cs)
      if n ≤ 255 then .ok (.point n, r) else .error .malformed
    else if c.isDigit then .error .malformed
    else (pointEscape host c ts).map fun (n, r) => (.point n, r)

/-- A reference to a group by its number. -/
def referTo (l : Ledger) (index : Nat) (ts : List Token) : Except Refusal (Node × List Token) :=
  if index < l.widths.length && l.isClosed index && l.mayRefer index then .ok (.again index, ts)
  else .error .malformed

/-- An escape that begins with a digit: an octal code point of three digits, or a reference to a group. -/
def digitEscape (l : Ledger) (c : Char) (ts : List Token) : Except Refusal (Node × List Token) :=
  match ts with
  | .char d :: rest =>
    if d.isDigit then
      match rest with
      | .char e :: rest' =>
        if isOctal c && isOctal d && isOctal e then
          let n := inBase 8 [c, d, e]
          if n ≤ 255 then .ok (.point n, rest') else .error .malformed
        else referTo l (inBase 10 [c, d]) rest
      | _ => referTo l (inBase 10 [c, d]) rest
    else referTo l (inBase 10 [c]) ts
  | _ => referTo l (inBase 10 [c]) ts

/-- An escape outside a character set. -/
def nodeEscape (host : Host) (l : Ledger) (c : Char) (ts : List Token) : Except Refusal (Node × List Token) :=
  match anchorEscape? c, classEscape? c, controlEscape? c with
  | some a, _, _ => .ok (.anchor a, ts)
  | none, some item, _ => .ok (.set false [item], ts)
  | none, none, some n => .ok (.point n, ts)
  | none, none, none =>
    if c == '0' then
      let (cs, r) := takeChars isOctal 2 ts
      .ok (.point (inBase 8 (c :: cs)), r)
    else if c.isDigit then digitEscape l c ts
    else (pointEscape host c ts).map fun (n, r) => (.point n, r)

/-! ## Character sets -/

/-- One member of a character set, before it is known whether a range follows. -/
def setMember (host : Host) (t : Token) (ts : List Token) : Except Refusal (SetItem × List Token) :=
  match t with
  | .escape c => setEscape host c ts
  | .char c => .ok (.point c.toNat, ts)
  | .dangling => .error .malformed

/-- The members of a character set up to its closing bracket; a bracket that comes first is a member. -/
def setItems (host : Host) : Nat → Bool → List Token → Except Refusal (List SetItem × List Token)
  | 0, _, _ => .error .malformed
  | _ + 1, _, [] => .error .malformed
  | fuel + 1, first, t :: ts =>
    if t == .char ']' && !first then .ok ([], ts)
    else do
      let (low, ts) ← setMember host t ts
      match ts with
      | .char '-' :: [] => .error .malformed
      | .char '-' :: .char ']' :: rest => .ok ([low, .point 45], rest)
      | .char '-' :: t' :: rest =>
        let (high, rest) ← setMember host t' rest
        match low, high with
        | .point a, .point b =>
          if b < a then .error .malformed
          else
            let (items, r) ← setItems host fuel false rest
            .ok (.range a b :: items, r)
        | _, _ => .error .malformed
      | _ =>
        let (items, r) ← setItems host fuel false ts
        .ok (low :: items, r)

/-- A character set behind its opening bracket. -/
def charSet (host : Host) (ts : List Token) : Except Refusal (Node × List Token) :=
  let (negated, ts) := match ts with
    | .char '^' :: rest => (true, rest)
    | _ => (false, ts)
  (setItems host (ts.length + 1) true ts).map fun (items, r) =>
    match items with
    | [.point n] => (if negated then .otherThan n else .point n, r)
    | _ => (.set negated items, r)

/-! ## Repetitions -/

/-- The number of rounds beyond which a repetition is refused. -/
def roundsCap : Nat := 4294967295

/-- A number of rounds; without digits the default. -/
def roundCount (cs : List Char) (default : Option Nat) : Except Refusal (Option Nat) :=
  if cs.isEmpty then .ok default
  else if Decimal.maxIntDigits < cs.length then .error .numberTooLong
  else if roundsCap ≤ inBase 10 cs then .error .tooManyRounds
  else .ok (some (inBase 10 cs))

/-- The bounds in braces behind the opening one; nothing if the brace stands for itself. -/
def bounds (ts : List Token) : Except Refusal (Option ((Nat × Option Nat) × List Token)) :=
  match ts with
  | .char '}' :: _ => .ok none
  | _ =>
    let (low, ts) := takeChars Char.isDigit ts.length ts
    let (high, ts) := match ts with
      | .char ',' :: rest => takeChars Char.isDigit rest.length rest
      | _ => (low, ts)
    match ts with
    | [.char '}', .dangling] => .error .malformed
    | .char '}' :: rest => do
      let least ← roundCount low (some 0)
      let most ← roundCount high none
      match least, most with
      | some l, some m => if m < l then .error .malformed else .ok (some ((l, some m), rest))
      | some l, none => .ok (some ((l, none), rest))
      | none, _ => .ok none
    | _ => .ok none

/-- The greed that the token behind a repetition chooses. -/
def greedOf (ts : List Token) : Greed × List Token :=
  match ts with
  | .char '?' :: rest => (.lazy, rest)
  | .char '+' :: rest => (.possessive, rest)
  | _ => (.greedy, ts)

/-- Repeats the last node of a sequence, which is given in reverse; an anchor, a repetition and nothing cannot be
repeated. -/
def repeatLast (greed : Greed) (least : Nat) (most : Option Nat) : List Node → Except Refusal (List Node)
  | [] => .error .malformed
  | .anchor _ :: _ => .error .malformed
  | .repeated _ _ _ _ :: _ => .error .malformed
  | .group none add del body :: rest =>
    if add.isNone && del.isNone then .ok (.repeated greed least most body :: rest)
    else .ok (.repeated greed least most [.group none add del body] :: rest)
  | n :: rest => .ok (.repeated greed least most [n] :: rest)

/-! ## Modes -/

/-- The mode of a letter. -/
def modeOf? (c : Char) : Option Modes :=
  match c with
  | 'i' => some { ignoreCase := true }
  | 'm' => some { multiline := true }
  | 's' => some { dotAll := true }
  | 'x' => some { verbose := true }
  | 'a' => some { ascii := true }
  | 'u' => some { unicode := true }
  | 't' => some { template := true }
  | _ => none

/-- The letters of modes that are turned on, up to the token that ends them, which is returned. -/
def modesOn : Nat → Modes → List Token → Except Refusal (Modes × Char × List Token)
  | 0, _, _ => .error .malformed
  | fuel + 1, on, ts =>
    match ts with
    | .char c :: rest =>
      if c == ')' || c == '-' || c == ':' then .ok (on, c, rest)
      else
        match modeOf? c with
        | none => .error .malformed
        | some m =>
          let on' := on.union m
          if (m.ascii && on'.unicode) || (m.unicode && on'.ascii) then .error .malformed else modesOn fuel on' rest
    | _ => .error .malformed

/-- The letters of modes that are turned off, up to the colon. -/
def modesOff : Nat → Modes → List Token → Except Refusal (Modes × List Token)
  | 0, _, _ => .error .malformed
  | fuel + 1, off, ts =>
    match ts with
    | .char c :: rest =>
      if c == ':' && !off.isNone then .ok (off, rest)
      else
        match modeOf? c with
        | none => .error .malformed
        | some m => if m.ascii || m.unicode then .error .malformed else modesOff fuel (off.union m) rest
    | _ => .error .malformed

/-- What modes in a group say: modes for the whole pattern, or modes turned on and off inside the group. -/
inductive ModeClause
  | whole (on : Modes)
  | inside (on off : Modes)

/-- The modes behind the question mark of a group. -/
def modeClause (ts : List Token) : Except Refusal (ModeClause × List Token) := do
  let (on, stop, ts) ← modesOn (ts.length + 1) {} ts
  if stop == ')' then .ok (.whole on, ts)
  else if on.template then .error .malformed
  else
    let (off, ts) ← if stop == '-' then modesOff (ts.length + 1) {} ts else .ok ({}, ts)
    if off.template || on.meets off then .error .malformed else .ok (.inside on off, ts)

/-! ## Names -/

/-- A name of a group up to a character. -/
def nameUntil (stop : Char) (ts : List Token) : Except Refusal (String × List Token) := do
  let (cs, r) ← untilChar stop ts
  if isName cs then .ok (String.ofList cs, r) else .error .malformed

/-- The group that a condition asks about: a name, or a number that need not be known yet. -/
def conditionGroup (l : Ledger) (ts : List Token) : Except Refusal (Nat × Ledger × List Token) := do
  let (cs, r) ← untilChar ')' ts
  if isName cs then
    match l.names.lookup (String.ofList cs) with
    | some index => .ok (index, l, r)
    | none => .error .malformed
  else
    match Decimal.readInt? (String.ofList cs) with
    | some n => if 0 < n then .ok (n.toNat, { l with references := n.toNat :: l.references }, r) else .error .malformed
    | none => .error .malformed

/-! ## Sequences and groups -/

/-- A blank between the parts of a verbose pattern. -/
def isVerboseBlank (c : Char) : Bool := c == ' ' || (9 ≤ c.toNat && c.toNat ≤ 13)

/-- The tokens behind a comment that runs to the end of the line. -/
def skipLine (ts : List Token) : List Token :=
  match ts.dropWhile fun t => t != .char '\n' && t != .dangling with
  | .char _ :: rest => rest
  | rest => rest

/-- The tokens behind a comment in a group. -/
def skipComment (ts : List Token) : Except Refusal (List Token) :=
  match ts.dropWhile (· != .char ')') with
  | [] => .error .malformed
  | _ :: rest => .ok rest

/-- The tokens behind a closing bracket. -/
def closing (ts : List Token) : Except Refusal (List Token) :=
  match ts with
  | .char ')' :: rest => .ok rest
  | _ => .error .malformed

/-- The kind of a group, by what follows its opening bracket. -/
inductive Opening
  | group (name : Option String)
  | plain
  | atomic
  | modes (on off : Modes)
  | whole (on : Modes)
  | look (behind negated : Bool)
  | condition
  | again (index : Nat)
  | comment

/-- What a group that begins with a letter P is: a named group or a reference by name. -/
def namedOpening (l : Ledger) (ts : List Token) : Except Refusal (Opening × List Token) :=
  match ts with
  | .char '<' :: rest => (nameUntil '>' rest).map fun (name, r) => (.group (some name), r)
  | .char '=' :: rest => do
    let (name, r) ← nameUntil ')' rest
    match l.names.lookup name with
    | some index => if l.isClosed index && l.mayRefer index then .ok (.again index, r) else .error .malformed
    | none => .error .malformed
  | _ => .error .malformed

/-- What kind of group begins behind an opening bracket. -/
def opening (l : Ledger) (ts : List Token) : Except Refusal (Opening × List Token) :=
  match ts with
  | .char '?' :: rest =>
    match rest with
    | .char 'P' :: r => namedOpening l r
    | .char ':' :: r => .ok (.plain, r)
    | .char '#' :: r => .ok (.comment, r)
    | .char '=' :: r => .ok (.look false false, r)
    | .char '!' :: r => .ok (.look false true, r)
    | .char '<' :: .char '=' :: r => .ok (.look true false, r)
    | .char '<' :: .char '!' :: r => .ok (.look true true, r)
    | .char '(' :: r => .ok (.condition, r)
    | .char '>' :: r => .ok (.atomic, r)
    | .char c :: _ =>
      if (modeOf? c).isSome || c == '-' then
        (modeClause rest).map fun (clause, r) =>
          match clause with
          | .whole on => (.whole on, r)
          | .inside on off => (.modes on off, r)
      else .error .malformed
    | _ => .error .malformed
  | _ => .ok (.group none, ts)

mutual
/-- Alternatives up to a closing bracket or the end.  `outermost` is set outside all groups.  Alternatives take one
level of the room, and the sequences in them another one. -/
def alternatives (host : Host) : Nat → Nat → Bool → Bool → Ledger → List Token →
    Except Refusal (List (List Node) × Ledger × List Token)
  | 0, _, _, _, _, _ => .error .malformed
  | fuel + 1, room + 2, outermost, verbose, l, ts => do
    let (first, l, ts) ← sequence host fuel room outermost verbose l [] ts
    moreAlternatives host fuel room outermost verbose l [first] ts
  | _ + 1, _, _, _, _, _ => .error .tooDeep

/-- The alternatives behind the first, which are collected in reverse. -/
def moreAlternatives (host : Host) : Nat → Nat → Bool → Bool → Ledger → List (List Node) → List Token →
    Except Refusal (List (List Node) × Ledger × List Token)
  | 0, _, _, _, _, _, _ => .error .malformed
  | fuel + 1, room, outermost, verbose, l, done, ts =>
    match ts with
    | .char '|' :: rest => do
      let verbose := if outermost then l.modes.verbose else verbose
      let (next, l, ts) ← sequence host fuel room false verbose l [] rest
      moreAlternatives host fuel room outermost verbose l (next :: done) ts
    | _ => .ok (done.reverse, l, ts)

/-- A sequence up to a bar, a closing bracket or the end; the nodes read so far are given in reverse.  `atStart` is
set in the first alternative outside all groups, where modes for the whole pattern may stand. -/
def sequence (host : Host) : Nat → Nat → Bool → Bool → Ledger → List Node → List Token →
    Except Refusal (List Node × Ledger × List Token)
  | 0, _, _, _, _, _, _ => .error .malformed
  | _ + 1, _, _, _, l, done, [] => .ok (done.reverse, l, [])
  | _ + 1, _, _, _, _, _, .dangling :: _ => .error .malformed
  | fuel + 1, room, atStart, verbose, l, done, .escape c :: rest => do
    let (node, rest) ← nodeEscape host l c rest
    sequence host fuel room atStart verbose l (node :: done) rest
  | fuel + 1, room, atStart, verbose, l, done, .char c :: rest =>
    if c == '|' || c == ')' then .ok (done.reverse, l, .char c :: rest)
    else if verbose && isVerboseBlank c then sequence host fuel room atStart verbose l done rest
    else if verbose && c == '#' then sequence host fuel room atStart verbose l done (skipLine rest)
    else if c == '[' then do
      let (node, rest) ← charSet host rest
      sequence host fuel room atStart verbose l (node :: done) rest
    else if c == '?' || c == '*' || c == '+' then do
      let least := if c == '+' then 1 else 0
      let most := if c == '?' then some 1 else none
      let (greed, rest) := greedOf rest
      let done ← repeatLast greed least most done
      sequence host fuel room atStart verbose l done rest
    else if c == '{' then do
      match ← bounds rest with
      | none => sequence host fuel room atStart verbose l (.point c.toNat :: done) rest
      | some ((least, most), rest) =>
        let (greed, rest) := greedOf rest
        let done ← repeatLast greed least most done
        sequence host fuel room atStart verbose l done rest
    else if c == '.' then sequence host fuel room atStart verbose l (.any :: done) rest
    else if c == '^' then sequence host fuel room atStart verbose l (.anchor .lineStart :: done) rest
    else if c == '$' then sequence host fuel room atStart verbose l (.anchor .lineEnd :: done) rest
    else if c == '(' then do
      let (kind, rest) ← opening l rest
      match kind with
      | .comment =>
        let rest ← skipComment rest
        sequence host fuel room atStart verbose l done rest
      | .again index => sequence host fuel room atStart verbose l (.again index :: done) rest
      | .whole on =>
        if atStart && done.isEmpty then
          let l := { l with modes := l.modes.union on }
          sequence host fuel room atStart l.modes.verbose l done rest
        else .error .malformed
      | _ =>
        let (node, l, rest) ← groupBody host fuel room verbose l kind rest
        sequence host fuel room atStart verbose l (node :: done) rest
    else sequence host fuel room atStart verbose l (.point c.toNat :: done) rest

/-- The body of a group of a kind, up to and with its closing bracket. -/
def groupBody (host : Host) : Nat → Nat → Bool → Ledger → Opening → List Token →
    Except Refusal (Node × Ledger × List Token)
  | 0, _, _, _, _, _ => .error .malformed
  | fuel + 1, room, verbose, l, kind, ts =>
    match kind with
    | .group name =>
      match l.openGroup? name with
      | none => .error .malformed
      | some (index, l) => do
        let (alts, l, ts) ← alternatives host fuel room false verbose l ts
        let ts ← closing ts
        let body := joined alts
        .ok (.group (some index) {} {} body, l.closeGroup index body, ts)
    | .look behind negated => do
      let outer := l.lookBehind
      let l := if behind && outer.isNone then { l with lookBehind := some l.widths.length } else l
      let (alts, l, ts) ← alternatives host fuel room false verbose l ts
      let l := if behind && outer.isNone then { l with lookBehind := none } else l
      let ts ← closing ts
      .ok (.look behind negated (joined alts), l, ts)
    | .condition => do
      let (index, l, ts) ← conditionGroup l ts
      if !l.mayRefer index then .error .malformed
      else if room == 0 then .error .tooDeep
      else
        -- the two sequences of a condition stand in it without alternatives around them
        let (yes, l, ts) ← sequence host fuel (room - 1) false verbose l [] ts
        match ts with
        | .char '|' :: rest =>
          let (no, l, ts) ← sequence host fuel (room - 1) false verbose l [] rest
          let ts ← closing ts
          .ok (.whether index yes no, l, ts)
        | _ =>
          let ts ← closing ts
          .ok (.whether index yes [], l, ts)
    | .atomic => do
      let (alts, l, ts) ← alternatives host fuel room false verbose l ts
      let ts ← closing ts
      .ok (.atomic (joined alts), l, ts)
    | .modes on off => do
      let (alts, l, ts) ← alternatives host fuel room false ((verbose || on.verbose) && !off.verbose) l ts
      let ts ← closing ts
      .ok (.group none on off (joined alts), l, ts)
    | _ => do
      let (alts, l, ts) ← alternatives host fuel room false verbose l ts
      let ts ← closing ts
      .ok (.group none {} {} (joined alts), l, ts)

/-- The node sequence of some alternatives. -/
def joined : List (List Node) → List Node
  | [a] => a
  | alts => [.branch alts]
end

/-- Reads a pattern under the modes given with it. -/
def compile (host : Host) (modes : Modes) (source : String) : Except Refusal Pattern := do
  let ts := tokens source.toList
  let (alts, l, rest) ← alternatives host (4 * ts.length + 4) host.room true modes.verbose (Ledger.start modes) ts
  if l.modes.ascii && l.modes.unicode then .error .conflictingModes
  else if !rest.isEmpty || l.references.any (fun g => l.widths.length ≤ g) then .error .malformed
  else
    let nodes := joined alts
    if !seqLooksFixed l.widths nodes || (l.modes.template && seqRepeats nodes) then .error .malformed
    else .ok ⟨source, l.modes, l.widths, nodes⟩

end Shelfmark.Pattern
