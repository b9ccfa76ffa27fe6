import Shelfmark.Bookmark.Basic
import Shelfmark.Text.Words

/-!
# The words of a bookmark

`Bookmark.weightedWords` lists the words by which bookmarks are compared.  A word counts as often as it is listed, so
words of the title weigh more than words of the description.
-/

namespace Shelfmark.Bookmark

/-- How often each word of the title is listed. -/
def titleRounds : Nat := 3

/-- How often each word of the description and each keyword is listed. -/
def detailRounds : Nat := 2

/-- The number of words of the description that are looked at. -/
def descriptionCap : Nat := 20

/-- A list repeated a number of times. -/
def rounds {α : Type} (n : Nat) (xs : List α) : List α := (List.replicate n xs).flatten

/-- The keywords in lower case, as far as they are meaningful. -/
def keywordWords (b : Bookmark) : List String := (b.keywords.map Text.lower).filter Text.isMeaningful

/-- The words of title, description, keywords and category, each listed as often as it weighs. -/
def weightedWords (b : Bookmark) : List String :=
  rounds titleRounds (Text.plainWords b.title) ++
    rounds detailRounds ((Text.plainWords b.description).take descriptionCap) ++
    rounds detailRounds b.keywordWords ++
    (if b.category.isEmpty then [] else [Text.lower b.category])

end Shelfmark.Bookmark
