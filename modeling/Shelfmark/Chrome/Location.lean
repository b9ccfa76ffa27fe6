import Shelfmark.Files

/-!
# Where Chrome keeps its bookmarks

`Chrome.bookmarksPath` is the path of the bookmarks file of a profile, which depends on the operating system.
-/

namespace Shelfmark.Chrome

/-- An operating system, by the name of its family and the name of the platform. -/
structure System where
  family : String := "posix"
  platform : String := "linux"
  deriving Inhabited

/-- The path of the bookmarks file of a profile, below the home directory.  On Linux there are two places for it, the
second one if nothing is in the first. -/
def pathBelowHome (system : System) (profile : String) (isThere : String → Bool) : Except Fault String :=
  if system.family == "nt" then
    .ok ("AppData/Local/Google/Chrome/User Data/" ++ profile ++ "/Bookmarks")
  else if system.platform == "darwin" then
    .ok ("Library/Application Support/Google/Chrome/" ++ profile ++ "/Bookmarks")
  else if system.family == "posix" then
    let first := ".config/google-chrome/" ++ profile ++ "/Bookmarks"
    .ok (if isThere first then first else ".config/chromium/" ++ profile ++ "/Bookmarks")
  else .error (.unknownSystem system.family)

/-- The path of the bookmarks file of a profile. -/
def bookmarksPath (fs : Files) (system : System) (profile : String) : Except Fault String :=
  (pathBelowHome system profile fun path => fs.isThere (Files.under fs.home path)).map fun path =>
    Files.plainPath (Files.under fs.home path)

end Shelfmark.Chrome
