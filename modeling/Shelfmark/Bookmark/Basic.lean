import Shelfmark.Number
import Shelfmark.Time.Timestamp
import Shelfmark.Text.Search

/-!
# Bookmarks

A bookmark as the store keeps it, and what is derived from its parts.

* `Bookmark.isEnriched`, `Bookmark.hasImage`, `Bookmark.repoName`, `Bookmark.creatorKey`: derived facts, which fail
  where extras or metadata are no objects.
* `Bookmark.searchableText`: the text that free-text queries look into.
-/

namespace Shelfmark

/-- A set of texts as the sorted list of its members. -/
def sortedSet (xs : List String) : List String :=
  (xs.foldl (fun acc x => if acc.contains x then acc else x :: acc) []).mergeSort fun a b => a ≤ b

/-- Members that are collected once are different. -/
theorem nodup_collected : ∀ {acc : List String} (xs : List String), acc.Nodup →
    (xs.foldl (fun acc x => if acc.contains x then acc else x :: acc) acc).Nodup
  | _, [], h => h
  | acc, x :: rest, h => by
    rw [List.foldl_cons]
    split
    · exact nodup_collected rest h
    · rename_i hx
      have hmem : x ∉ acc := by simpa using hx
      exact nodup_collected rest (List.nodup_cons.mpr ⟨hmem, h⟩)

/-- Texts that stand in order and are different stand in strict order. -/
theorem pairwise_lt_of_le : ∀ {xs : List String}, xs.Pairwise (· ≤ ·) → xs.Nodup → xs.Pairwise (· < ·)
  | [], _, _ => List.Pairwise.nil
  | x :: rest, h, hn => by
    obtain ⟨hx, hrest⟩ := List.pairwise_cons.mp h
    obtain ⟨hmem, hn⟩ := List.nodup_cons.mp hn
    refine List.pairwise_cons.mpr ⟨fun y hy => ?_, pairwise_lt_of_le hrest hn⟩
    exact Std.lt_of_le_of_ne (hx y hy) fun he => hmem (he ▸ hy)

/-- **The members of a set stand in strict order.** -/
theorem pairwise_sortedSet (xs : List String) : (sortedSet xs).Pairwise (· < ·) := by
  refine pairwise_lt_of_le ?_ ?_
  · have htrans : ∀ a b c : String, decide (a ≤ b) = true → decide (b ≤ c) = true → decide (a ≤ c) = true := by
      intro a b c hab hbc
      simpa using String.le_trans (by simpa using hab) (by simpa using hbc)
    have htotal : ∀ a b : String, (decide (a ≤ b) || decide (b ≤ a)) = true := by
      intro a b
      simpa using String.le_total a b
    exact (List.pairwise_mergeSort htrans htotal _).imp fun h => by simpa using h
  · exact (List.mergeSort_perm _ _).nodup_iff.mpr (nodup_collected xs List.nodup_nil)

theorem pairwise_noTexts : ([] : List String).Pairwise (· < ·) := List.Pairwise.nil

/-- A saved bookmark. -/
structure Bookmark where
  id : String
  url : String := ""
  title : String := ""
  description : String := ""
  domain : String := ""
  category : String := ""
  folderPath : String := ""
  keywords : List String := []
  /-- The tags, a set. -/
  tags : List String := []
  tags_sorted : tags.Pairwise (· < ·) := by exact Shelfmark.pairwise_noTexts
  topics : List String := []
  contentType : String := ""
  platform : String := ""
  creator : String := ""
  dateAdded : Timestamp := Timestamp.epoch
  lastAccessed : Option Timestamp := none
  accessCount : Int := 0
  /-- Whether the address still answers, if that is known. -/
  isAlive : Option Bool := none
  readingTime : Option Number := none
  qualityScore : Option Number := none
  publishedDate : Option Timestamp := none
  contentSnippet : String := ""
  platformData : List (String × Json) := []
  rawMetadata : List (String × Json) := []

namespace Bookmark

instance : Inhabited Bookmark := ⟨{ id := "" }⟩

/-- The value under a key, an empty object if there is none or if it counts as false. -/
def nested (key : String) (fields : List (String × Json)) : Json :=
  match Json.lookup key fields with
  | some v => if v.isTrue then v else .obj []
  | none => .obj []

/-- A field of a value that is taken for an object, null if it is missing. -/
def fieldOf (v : Json) (key : String) : Except Fault Json :=
  match v with
  | .obj fields => .ok ((Json.lookup key fields).getD .null)
  | v => .error (.noSuchPart v.kindName "get")

/-- The platform's extras, an empty object if there are none.  Nothing says that they are an object. -/
def extra (b : Bookmark) : Json := nested "extra" b.platformData

/-- A value of the platform's extras, such as owner, repository, thumbnail or playlist. -/
def extraField (b : Bookmark) (key : String) : Except Fault Json := fieldOf b.extra key

/-- The bookmark has more to it than its address: a description, keywords or a snippet. -/
def isEnriched (b : Bookmark) : Bool :=
  !b.description.isEmpty || !b.keywords.isEmpty || !b.contentSnippet.isEmpty

/-- A value of a group of the page's metadata. -/
def metadataField (b : Bookmark) (group key : String) : Except Fault Json := fieldOf (nested group b.rawMetadata) key

/-- The places of a picture: a thumbnail, or an image in the page's metadata. -/
def pictures (b : Bookmark) : List (Except Fault Json) :=
  [b.extraField "thumbnail", b.metadataField "openGraph" "og:image", b.metadataField "twitterCard" "twitter:image"]

/-- The bookmark has a picture: the places are looked at until one is found. -/
def hasImage (b : Bookmark) : Except Fault Bool := b.pictures.anyM fun v => v.map Json.isTrue

/-- Owner and repository in lower case, parted by a slash; empty unless both are known. -/
def repoName (b : Bookmark) : Except Fault String := do
  let owner ← b.extraField "owner"
  let repo ← b.extraField "repo"
  if owner.isTrue && repo.isTrue then
    let owner ← owner.display usualRoom
    let repo ← repo.display usualRoom
    return Text.lower (owner ++ "/" ++ repo)
  else return ""

/-- The playlist, empty if there is none. -/
def playlist (b : Bookmark) : Except Fault String := do
  let v ← b.extraField "playlistId"
  if v.isTrue then v.display usualRoom else return ""

/-- The platform, `other` if there is none. -/
def platformName (b : Bookmark) : String := if b.platform.isEmpty then "other" else b.platform

/-- Platform and creator, parted by a colon. -/
def creatorKey (b : Bookmark) : String := b.platformName ++ ":" ++ b.creator

/-- The bookmark is known to be dead. -/
def isDead (b : Bookmark) : Bool := b.isAlive == some false

/-- The keywords as one text. -/
def keywordText (b : Bookmark) : String := " ".intercalate b.keywords

/-- The text that free-text queries look into, as it is written. -/
def searchableText (b : Bookmark) : String :=
  " ".intercalate [b.title, b.url, b.description, b.domain, b.category, b.keywordText]

/-- The page's own date of publication is known. -/
def hasPublishedDate (b : Bookmark) : Bool :=
  b.publishedDate.isSome || ((Json.lookup "publishedDate" b.rawMetadata).getD .null).isTrue

end Bookmark

end Shelfmark
