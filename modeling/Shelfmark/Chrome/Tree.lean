import Shelfmark.Bookmark.Record
import Shelfmark.Json.Reader
import Shelfmark.Files
import Shelfmark.Time.Span
import Shelfmark.Url

/-!
# Chrome's bookmarks

A bookmarks file holds trees of folders and bookmarks as JSON.  Each bookmark of a file is an entry: the bookmark, and
its name and its folder as the file has them, which may be no texts.

* `Chrome.timeOf`: the time that a timestamp of the file stands for.
* `Chrome.entriesOf`: the entries of a file, folder by folder.
* `Chrome.readEntries`, `Chrome.read`: the entries and the bookmarks of a file at a path.
-/

namespace Shelfmark.Chrome

/-! ## Times -/

/-- The beginning of 1601 in universal time, from which timestamps count, in microseconds from the beginning of the
calendar. -/
def firstInstant : Int := 50491123200000000

/-- The whole number that a value is or spells; nothing for a value that is no number. -/
def wholeNumber : Json → Except Fault (Option Int)
  | .int n => .ok (some n)
  | .bool b => .ok (some (if b then 1 else 0))
  | .str s => .ok (Decimal.readInt? s)
  | .float x =>
    match Decimal.truncate? x with
    | some n => .ok (some n)
    | none => if x.isNaN then .ok none else .error (.outOfRange "cannot convert float infinity to integer")
  | _ => .ok none

/-- The time a number of microseconds after the beginning of 1601. -/
def timeAfter (micros : Nat) : Except Fault Timestamp := do
  checkDays ((micros : Int).fdiv microsPerDay)
  match Timestamp.ofLocal? (firstInstant + micros) 0 with
  | some t => return t
  | none => .error (.outOfRange "date value out of range")

/-- The time that a timestamp stands for; none for a value that is no positive number. -/
def timeOf (v : Json) : Except Fault (Option Timestamp) := do
  match ← wholeNumber v with
  | some n => if n ≤ 0 then return none else (timeAfter n.toNat).map some
  | none => return none

/-! ## Trees -/

/-- The address of a bookmark as the file has it. -/
def addressValue (node : List (String × Json)) : Json := (Json.lookup "url" node).getD (.str "")

/-- The address of a bookmark. -/
def addressOf (node : List (String × Json)) : Except Fault String :=
  match addressValue node with
  | .str s => .ok s
  | v => .error (.noSuchPart v.kindName "startswith")

/-- A bookmark of a file, with its name and its folder as the file has them. -/
structure Entry where
  bookmark : Bookmark
  name : Json
  folder : Json

/-- The kind of the name, if it is no text. -/
def Entry.oddKind? (e : Entry) : Option String :=
  match e.name with
  | .str _ => none
  | v => some v.kindName

/-- The entry of a node, within a folder; a bookmark without a time was added now. -/
def entryOf (room : Nat) (now : Timestamp) (folder : Json) (node : List (String × Json)) : Except Fault Entry := do
  let field := fun key => (Json.lookup key node).getD .null
  let id ← (if (field "id").isTrue then field "id" else addressValue node).display room
  let url ← addressOf node
  let added ← timeOf (field "date_added")
  let lastUsed ← timeOf (field "date_last_used")
  let name := if (field "name").isTrue then field "name" else .str "Untitled"
  return {
    bookmark := {
      id
      url
      title := name.plainText
      domain := Url.site url
      folderPath := if folder.isTrue then folder.plainText else ""
      dateAdded := added.getD now
      lastAccessed := lastUsed }
    name
    folder }

/-- The path of a folder within another: a path that is a text, unless the folder is an outermost one whose name is
none. -/
def folderWithin (room : Nat) (folder : Json) (node : List (String × Json)) : Except Fault Json :=
  let name := (Json.lookup "name" node).getD (.str "")
  if folder.isTrue then do
    let outer ← folder.display room
    let inner ← name.display room
    return .str (outer ++ "/" ++ inner)
  else .ok name

/-- What a node is: a bookmark, a folder, or nothing of interest. -/
inductive NodeKind
  | bookmark
  | folder
  | other
  deriving DecidableEq, Repr

/-- What a node is. -/
def kindOf (node : List (String × Json)) : NodeKind :=
  match Json.lookup "type" node with
  | some (.str "url") => .bookmark
  | some (.str "folder") => .folder
  | _ => .other

mutual
/-- The entries of a tree within a folder, in the order of the file.  Every folder takes one level of the room. -/
def entriesWithin (now : Timestamp) (room : Nat) (folder : Json) : Json → Except Fault (List Entry)
  | .obj node =>
    match kindOf node with
    | .bookmark => (entryOf room now folder node).map fun e => [e]
    | .folder =>
      match room with
      | 0 => .error .tooDeep
      | deeper + 1 => (folderWithin room folder node).bind fun path => childrenWithin now deeper path node
    | .other => .ok []
  | v => .error (.noSuchPart v.kindName "get")
termination_by structural v => v

/-- The entries below a folder, whose path is given. -/
def childrenWithin (now : Timestamp) (room : Nat) (folder : Json) : List (String × Json) → Except Fault (List Entry)
  | [] => .ok []
  | (key, v) :: rest =>
    if key == "children" then listWithin now room folder v else childrenWithin now room folder rest

/-- The entries of the trees of a list. -/
def listWithin (now : Timestamp) (room : Nat) (folder : Json) : Json → Except Fault (List Entry)
  | .arr items => itemsWithin now room folder items
  | .obj [] => .ok []
  | .obj _ => .error (.noSuchPart "str" "get")
  | .str s => if s.isEmpty then .ok [] else .error (.noSuchPart "str" "get")
  | v => .error (.wrongType (Json.literalText v.kindName ++ " object is not iterable"))

/-- The entries of some trees. -/
def itemsWithin (now : Timestamp) (room : Nat) (folder : Json) : List Json → Except Fault (List Entry)
  | [] => .ok []
  | v :: rest => do
    let es ← entriesWithin now room folder v
    let more ← itemsWithin now room folder rest
    return es ++ more
end

/-! ## Files -/

/-- The trees of a file that are read, by name. -/
def roots : List String := ["bookmark_bar", "other", "synced"]

/-- The tree of a root, if it is there. -/
def rootTree (trees : Json) (name : String) : Except Fault (Option Json) :=
  match trees with
  | .obj fields => .ok (Json.lookup name fields)
  | .arr items =>
    if items.any fun v => v.same (.str name) then
      .error (.wrongType "list indices must be integers or slices, not str")
    else .ok none
  | .str s =>
    if Text.contains s name then .error (.wrongType "string indices must be integers, not 'str'") else .ok none
  | v => .error (.wrongType ("argument of type " ++ Json.literalText v.kindName ++ " is not iterable"))

/-- The entries of a root. -/
def entriesOfRoot (now : Timestamp) (room : Nat) (trees : Json) (name : String) : Except Fault (List Entry) := do
  match ← rootTree trees name with
  | some tree => entriesWithin now room (.str "") tree
  | none => return []

/-- The entries of a file, root by root. -/
def entriesOf (now : Timestamp) (room : Nat) (file : Json) : Except Fault (List Entry) :=
  match file with
  | .obj fields => do
    let trees := (Json.lookup "roots" fields).getD (.obj [])
    let es ← roots.mapM (entriesOfRoot now room trees)
    return es.flatten
  | v => .error (.noSuchPart v.kindName "get")

/-- The entries of the text of a file. -/
def parse (now : Timestamp) (room : Nat) (text : String) : Except Fault (List Entry) :=
  (Json.parse room text).bind (entriesOf now room)

/-- The entries of the file at a path. -/
def readEntries (now : Timestamp) (room : Nat) (fs : Files) (path : String) : Except Fault (List Entry) :=
  (fs.read path).bind (parse now room)

/-- The bookmarks of the file at a path. -/
def read (now : Timestamp) (room : Nat) (fs : Files) (path : String) : Except Fault (List Bookmark) :=
  (readEntries now room fs path).map fun es => es.map (·.bookmark)

end Shelfmark.Chrome
