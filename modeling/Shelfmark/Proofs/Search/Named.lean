import Shelfmark.Proofs.Query.Sidebar
import Shelfmark.Proofs.Search.Filtering
import Shelfmark.Proofs.Text.Lowercase

/-!
# Filters that name a value of a bookmark

A filter of the side bar is read in lower case (`parse_filter`), and all keys but one compare what they are asked for
with the values of a bookmark in lower case: so the filter keeps a bookmark whose value it names.  Tags are compared as
they are written, and a tag is found only if the bookmark has it in lower case, too (`apply_named`).
-/

namespace Shelfmark

open Query

/-- The values of a bookmark that a filter of the side bar can name. -/
def Bookmark.valuesFor (b : Bookmark) : SidebarKey → List String
  | .domain | .site => [b.domain]
  | .folder => [b.folderPath]
  | .topic => b.topics
  | .type => [b.contentType]
  | .tag => b.tags

namespace Query

variable {b : Bookmark} {key : SidebarKey} {v : String}

/-- **A single filter is read in lower case.** -/
theorem parse_filter (hbare : IsBare v.toList) :
    ActiveFilters.parse (key.word ++ ":" ++ v) = (ActiveFilters.single key (Text.lower v), "") := by
  have hnamed := key.allSmall_word.lowered
  have htext : (key.word ++ ":" ++ v).toList =
      Text.join [' '] ([.filter key key.word.toList v.toList hnamed hbare].map SidebarToken.chars) := by
    simp [Text.join, SidebarToken.chars]
  rw [ActiveFilters.parse, htext, parseChars_line]
  cases key <;> rfl

theorem contains_lower (text : String) : Text.contains (Text.lower text) (Text.lower (Text.lower text)) = true := by
  rw [Text.lower_lower]
  exact Text.contains_iff.mpr List.infix_rfl

theorem keeps_single (limit : Except Fault Timestamp) (text : String) :
    (ActiveFilters.single key text).keeps limit b = .ok ((ActiveFilters.single key text).fitsNames b) := by
  have hranges : (ActiveFilters.single key text).fitsRanges b = true := rfl
  have hstale : (ActiveFilters.single key text).stale = false := rfl
  rw [ActiveFilters.keeps, hstale, hranges]
  cases (ActiveFilters.single key text).fitsNames b <;> rfl

/-- **A filter that names a value keeps the bookmark,** a tag only if the bookmark has it in lower case. -/
theorem fitsNames_named (hv : v ∈ b.valuesFor key) :
    (ActiveFilters.single key (Text.lower v)).fitsNames b = decide (key = .tag → Text.lower v ∈ b.tags) := by
  cases key with
  | domain | site | folder =>
    cases List.mem_singleton.mp hv
    simp [ActiveFilters.fitsNames, ActiveFilters.single, ActiveFilters.ofValues, ActiveFilters.oneOccurs,
      contains_lower]
  | topic =>
    have hfits : ∃ t ∈ b.topics, ActiveFilters.topicFits (Text.lower (Text.lower v)) (Text.lower t) = true :=
      ⟨v, hv, by simp [ActiveFilters.topicFits, Text.lower_lower]⟩
    simpa [ActiveFilters.fitsNames, ActiveFilters.single, ActiveFilters.ofValues, ActiveFilters.oneOccurs] using hfits
  | type =>
    cases List.mem_singleton.mp hv
    simp [ActiveFilters.fitsNames, ActiveFilters.single, ActiveFilters.ofValues, ActiveFilters.oneOccurs,
      Text.lower_lower]
  | tag =>
    simp [ActiveFilters.fitsNames, ActiveFilters.single, ActiveFilters.ofValues, ActiveFilters.oneOccurs]

/-- **A filter that names a value of a bookmark finds it,** except for a tag that the bookmark does not have in lower
case. -/
theorem apply_named (hbare : IsBare v.toList) (hv : v ∈ b.valuesFor key) (now : Timestamp) (staleDays : Int) :
    (ActiveFilters.parse (key.word ++ ":" ++ v)).1.apply now staleDays [b] =
      .ok (if key = .tag ∧ Text.lower v ∉ b.tags then [] else [b]) := by
  rw [parse_filter hbare, ActiveFilters.apply, keepWhere_of_ok fun c _ => ⟨_, keeps_single _ _⟩]
  simp only [keeps_single, isYes, List.filter_cons, List.filter_nil, fitsNames_named hv]
  by_cases hlost : key = .tag ∧ Text.lower v ∉ b.tags <;> simp [hlost]

/-- A domain is found as it stands in the bookmark. -/
theorem apply_named_sample : let b : Bookmark := { id := "b", domain := "Example.ORG" }
    IsBare b.domain.toList ∧ b.domain ∈ b.valuesFor .domain ∧
      (ActiveFilters.parse "domain:Example.ORG").1.apply Timestamp.epoch 90 [b] = .ok [b] := by
  intro b
  have hbare : IsBare b.domain.toList := by decide
  have hv : b.domain ∈ b.valuesFor .domain := List.mem_singleton_self _
  have hkept := apply_named hbare hv Timestamp.epoch 90
  exact ⟨hbare, hv, hkept⟩

/-- A tag with a capital is not found as it stands in the bookmark. -/
theorem not_apply_named :
    let b : Bookmark := { id := "b", tags := ["Rust"], tags_sorted := List.pairwise_singleton _ _ }
    IsBare "Rust".toList ∧ "Rust" ∈ b.valuesFor .tag ∧
      (ActiveFilters.parse "tag:Rust").1.apply Timestamp.epoch 90 [b] = .ok [] := by
  intro b
  have hbare : IsBare "Rust".toList := by decide
  have htext : "tag:Rust" = SidebarKey.tag.word ++ ":" ++ "Rust" := by decide
  have hlower : Text.lower "Rust" = "rust" := by decide +kernel
  rw [htext, parse_filter hbare, hlower]
  exact ⟨hbare, List.mem_singleton_self _, rfl⟩

end Query

end Shelfmark
