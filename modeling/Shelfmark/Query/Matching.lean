import Shelfmark.Bookmark.Basic
import Shelfmark.Pattern.Matcher
import Shelfmark.Query.Terms

/-!
# Matching free text

`TextQuery.fits` decides whether a bookmark is what a free text asks for.
-/

namespace Shelfmark.Query.TextQuery

/-- A pattern matches somewhere; a pattern that ignores case looks into the text in lower case. -/
def patternFits (written lowered : String) (p : Pattern) : Bool :=
  p.searchIn (if p.modes.ignoreCase then lowered else written)

/-- A text is what a free text asks for: every positive term, every phrase and every pattern occurs in it, no
negative term does, and one of the regular terms does if there are any. -/
def fitsText (q : TextQuery) (written : String) : Bool :=
  let lowered := Text.lower written
  q.positive.all (Text.contains lowered) &&
    q.negative.all (fun t => !Text.contains lowered t) &&
    q.phrases.all (Text.contains lowered) &&
    q.patterns.all (patternFits written lowered) &&
    (q.regular.isEmpty || q.regular.any (Text.contains lowered))

/-- A bookmark is what a free text asks for. -/
def fits (q : TextQuery) (b : Bookmark) : Bool := q.fitsText b.searchableText

end Shelfmark.Query.TextQuery
