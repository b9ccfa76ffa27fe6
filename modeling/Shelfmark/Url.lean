import Shelfmark.Text.Case

/-!
# URLs

A URL is split into scheme, authority, path, query and fragment, and three readings of it are made.

* `Url.split?`: the parts of a URL; nothing for an authority that is malformed.
* `Url.host?`: the host of an authority, in lower case.
* `Url.canonical?`: host and path, without a leading `www.` and a trailing slash, by which likely duplicates are
  found.
* `Url.site`: the host of a web address, or a word for the kind of any other address.
* `Url.comparablePath?`: the path without slashes at its end.
-/

namespace Shelfmark

/-- The parts of a URL. -/
structure Url where
  scheme : List Char
  authority : List Char
  path : List Char
  query : Option (List Char)
  fragment : Option (List Char)
  deriving DecidableEq, Repr

namespace Url

/-! ## Cutting text -/

/-- The text before the first occurrence of a character and the text behind it, if there is one. -/
def cut (c : Char) : List Char → List Char × Option (List Char)
  | [] => ([], none)
  | d :: rest =>
    if d == c then ([], some rest)
    else
      let (before, behind) := cut c rest
      (d :: before, behind)

/-- The text behind the last occurrence of a character, or the whole text. -/
def behindLast (c : Char) (cs : List Char) : List Char :=
  if cs.contains c then (cs.reverse.takeWhile (· != c)).reverse else cs

/-- The pieces of a text between the occurrences of a character. -/
def pieces (c : Char) : List Char → List (List Char)
  | [] => [[]]
  | d :: rest =>
    if d == c then [] :: pieces c rest
    else
      match pieces c rest with
      | p :: ps => (d :: p) :: ps
      | [] => [[d]]

/-! ## Hosts in brackets -/

/-- A number from 0 to 255 without leading zeros. -/
def isOctet (cs : List Char) : Bool :=
  !cs.isEmpty && cs.all Char.isDigit && cs.length ≤ 3 && (cs == ['0'] || cs.head? != some '0') &&
    cs.foldl (fun n c => 10 * n + (c.toNat - 48)) 0 ≤ 255

/-- An address of four octets. -/
def isAddress4 (cs : List Char) : Bool :=
  let ps := pieces '.' cs
  ps.length == 4 && ps.all isOctet

/-- One to four hexadecimal digits. -/
def isGroup6 (cs : List Char) : Bool :=
  !cs.isEmpty && cs.length ≤ 4 &&
    cs.all fun c => c.isDigit || ('a' ≤ c && c ≤ 'f') || ('A' ≤ c && c ≤ 'F')

/-- The groups of an address of eight groups, one run of which may be left out between two colons. -/
def areGroups6 (ps : List (List Char)) : Bool :=
  let inner := (ps.drop 1).dropLast
  let last := ps.getLast?.getD []
  let first := ps.head?.getD []
  if inner.any List.isEmpty then
    let skip := 1 + (inner.takeWhile fun p => !p.isEmpty).length
    let high := ps.take skip
    let low := ps.drop (skip + 1)
    let high := if first.isEmpty then high.drop 1 else high
    let low := if last.isEmpty then low.dropLast else low
    (inner.filter List.isEmpty).length == 1 && (!first.isEmpty || high.isEmpty) && (!last.isEmpty || low.isEmpty) &&
      high.length + low.length ≤ 7 && high.all isGroup6 && low.all isGroup6
  else ps.length == 8 && ps.all isGroup6

/-- An address of eight groups; the last two may be written as four octets. -/
def isAddress6 (cs : List Char) : Bool :=
  let (address, zone) := cut '%' cs
  let ps := pieces ':' address
  let last := ps.getLast?.getD []
  (zone.all fun z => !z.isEmpty && !z.contains '%') && 3 ≤ ps.length &&
    (if last.contains '.' then
      isAddress4 last && ps.length ≤ 8 && areGroups6 (ps.dropLast ++ [['0'], ['0']])
    else ps.length ≤ 9 && areGroups6 ps)

/-- An address of a future version: the letter v, hexadecimal digits, a point and something behind it. -/
def isAddressFuture (cs : List Char) : Bool :=
  match cs with
  | 'v' :: rest =>
    let digits := rest.takeWhile fun c => c.isDigit || ('a' ≤ c && c ≤ 'f') || ('A' ≤ c && c ≤ 'F')
    match rest.drop digits.length with
    | '.' :: tail => !digits.isEmpty && !tail.isEmpty && !tail.contains '\n'
    | _ => false
  | _ => false

/-- The brackets of an authority, if it has any, hold an address. -/
def bracketsValid (authority : List Char) : Bool :=
  let opening := authority.contains '['
  let closing := authority.contains ']'
  if opening && closing then
    let inside := (cut ']' ((cut '[' authority).2.getD [])).1
    if inside.head? == some 'v' then isAddressFuture inside else isAddress6 inside
  else !opening && !closing

/-- The characters that are written with a delimiter of URLs in their plain form, such as the sign for "account
of". -/
def hidesDelimiter (c : Char) : Bool :=
  [0x2047, 0x2048, 0x2049, 0x2100, 0x2101, 0x2105, 0x2106, 0x2a74, 0xfe13, 0xfe16, 0xfe55, 0xfe56, 0xfe5f, 0xfe6b,
    0xff03, 0xff0f, 0xff1a, 0xff1f, 0xff20].contains c.toNat

/-! ## Splitting -/

/-- A character of a scheme. -/
def isSchemeChar (c : Char) : Bool := c.isAlphanum || c == '+' || c == '-' || c == '.'

/-- The scheme in front of the first colon, in lower case, and the rest; without a scheme the whole text. -/
def splitScheme (cs : List Char) : List Char × List Char :=
  match cut ':' cs with
  | (c :: scheme, some rest) =>
    if c.isAlpha && (c :: scheme).all isSchemeChar then ((c :: scheme).map Char.toLower, rest) else ([], cs)
  | _ => ([], cs)

/-- A character that ends an authority. -/
def endsAuthority (c : Char) : Bool := c == '/' || c == '?' || c == '#'

/-- The authority behind two slashes, and the rest. -/
def splitAuthority (cs : List Char) : List Char × List Char :=
  match cs with
  | '/' :: '/' :: rest => (rest.takeWhile fun c => !endsAuthority c, rest.dropWhile fun c => !endsAuthority c)
  | _ => ([], cs)

/-- A text without the control characters and blanks at its front, and without tabs and line breaks. -/
def cleaned (cs : List Char) : List Char :=
  (cs.dropWhile fun c => c.toNat ≤ 32).filter fun c => c != '\t' && c != '\r' && c != '\n'

/-- The parts of a URL; nothing if the authority has a bracket without an address or hides a delimiter. -/
def splitChars? (cs : List Char) : Option Url :=
  let (scheme, rest) := splitScheme (cleaned cs)
  let (authority, rest) := splitAuthority rest
  if !bracketsValid authority || authority.any hidesDelimiter then none
  else
    let (rest, fragment) := cut '#' rest
    let (path, query) := cut '?' rest
    some ⟨scheme, authority, path, query, fragment⟩

/-- The parts of a URL. -/
def split? (s : String) : Option Url := splitChars? s.toList

/-- The host of an authority as it is written: without user and port, and without the brackets of an address. -/
def rawHost (authority : List Char) : List Char :=
  let place := behindLast '@' authority
  match cut '[' place with
  | (_, some inside) => (cut ']' inside).1
  | (_, none) => (cut ':' place).1

/-- The host in lower case, except for the zone of an address; nothing if it is empty. -/
def host? (u : Url) : Option (List Char) :=
  let raw := rawHost u.authority
  if raw.isEmpty then none
  else
    match cut '%' raw with
    | (name, some zone) => some (Text.lowerChars name ++ '%' :: zone)
    | (name, none) => some (Text.lowerChars name)

/-! ## Readings -/

/-- Drops one `www.` from the front. -/
def dropWww : List Char → List Char
  | 'w' :: 'w' :: 'w' :: '.' :: rest => rest
  | cs => cs

/-- Drops one slash from the end. -/
def dropEndSlash (cs : List Char) : List Char := if cs.getLast? == some '/' then cs.dropLast else cs

/-- Host and path, without a leading `www.` and one trailing slash; nothing without a scheme or a host. -/
def canonical? (s : String) : Option String :=
  (split? s).bind fun u =>
    if u.scheme.isEmpty then none
    else u.host?.map fun h => String.ofList (dropWww h ++ dropEndSlash u.path)

/-- The text begins with a word. -/
def beginsWith (word : String) (cs : List Char) : Bool := word.toList.isPrefixOf cs

/-- The host of a web address, or a word for the kind of any other address. -/
def site (s : String) : String :=
  let cs := s.toList
  if beginsWith "http://" cs || beginsWith "https://" cs then
    match (split? s).bind host? with
    | some h => String.ofList (Text.lowerChars h)
    | none => "invalid-url"
  else if beginsWith "chrome://" cs then "chrome-internal"
  else if beginsWith "file://" cs then "local-file"
  else if beginsWith "javascript:" cs then "javascript-bookmarklet"
  else if beginsWith "data:" cs then "data-uri"
  else if beginsWith "mailto:" cs then "contact-link"
  else "other-protocol"

/-- The path of a URL without the slashes at its end; nothing without a scheme or an authority. -/
def comparablePath? (s : String) : Option String :=
  (split? s).bind fun u =>
    if u.scheme.isEmpty || u.authority.isEmpty then none
    else some (String.ofList ((u.path.reverse.dropWhile (· == '/')).reverse))

end Url

end Shelfmark
