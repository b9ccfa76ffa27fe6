import Shelfmark.Fault
import Shelfmark.Text.Search
import Shelfmark.Url

/-!
# Files

The files that can be read: their paths and texts, and the directory that is home.

* `Files.plainPath`: a path without empty steps and steps that stay where they are.
* `Files.expandHome`: a path with the home directory in place of a tilde.
* `Files.read`: the text of a file.
-/

namespace Shelfmark

/-- Files by path, and the home directory. -/
structure Files where
  home : String := ""
  entries : List (String × String) := []
  deriving Inhabited

namespace Files

/-- The steps of a path, without empty ones and those that stay where they are. -/
def steps (path : String) : List (List Char) :=
  (Url.pieces '/' path.toList).filter fun s => !s.isEmpty && s != ['.']

/-- What a path begins with: one slash if it begins with slashes, two if there are exactly two of them. -/
def rootOf (path : String) : List Char :=
  match (path.toList.takeWhile (· == '/')).length with
  | 0 => []
  | 2 => ['/', '/']
  | _ => ['/']

/-- A path without empty steps and steps that stay where they are. -/
def plainPath (path : String) : String :=
  let text := rootOf path ++ Text.join ['/'] (steps path)
  if text.isEmpty then "." else String.ofList text

/-- Two paths, the second behind the first. -/
def under (directory path : String) : String := directory ++ "/" ++ path

/-- A path with the home directory in place of a tilde at its front; the homes of others are not known. -/
def expandHome (fs : Files) (path : String) : Except Fault String :=
  if (rootOf path).isEmpty then
    match steps path with
    | ['~'] :: rest => .ok (String.ofList (Text.join ['/'] (fs.home.toList :: rest)))
    | ('~' :: _) :: _ => .error .noHome
    | _ => .ok path
  else .ok path

/-- The steps of a path, each step up taking back the step before it. -/
def resolved (path : String) : List (List Char) :=
  ((steps path).foldl (fun taken s => if s == ['.', '.'] then taken.drop 1 else s :: taken) []).reverse

/-- The text of the file at a path. -/
def find? (fs : Files) (path : String) : Option String :=
  (fs.entries.find? fun e => resolved e.1 == resolved path).map Prod.snd

/-- The path leads to a directory. -/
def isDirectory (fs : Files) (path : String) : Bool :=
  (resolved path).isPrefixOf (resolved fs.home) ||
    fs.entries.any fun e => (resolved path).isPrefixOf (resolved e.1) && resolved path != resolved e.1

/-- The path leads to a file or a directory. -/
def isThere (fs : Files) (path : String) : Bool := (fs.find? path).isSome || fs.isDirectory path

/-- The text of the file at a path. -/
def read (fs : Files) (path : String) : Except Fault String :=
  match fs.find? path with
  | some text => .ok text
  | none => if fs.isDirectory path then .error (.isDirectory path) else .error (.noFile path)

end Files

end Shelfmark
