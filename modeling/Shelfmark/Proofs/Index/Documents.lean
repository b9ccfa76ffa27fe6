import Shelfmark.Index.Basic
import Shelfmark.Proofs.Fallible
import Shelfmark.Proofs.Text.Words

/-!
# Documents of bookmarks

Every bookmark has a document for the fields that an index covers by default (`Document.of_indexed`), and its places
are the fields with the beginnings of their words (`mem_places_docOf`).
-/

namespace Shelfmark

/-- The text of a field; empty for a field that has none. -/
def Bookmark.textOf (b : Bookmark) (name : String) : String := (b.fieldText name).toOption.getD ""

namespace Document

variable {fields : List String} {b : Bookmark}

/-- What the document of a bookmark is if all fields are texts. -/
def docOf (fields : List String) (b : Bookmark) : Document :=
  ⟨b.id, (Text.distinct fields).map fun name => (name, Text.prefixTokens (b.textOf name))⟩

@[simp] theorem docOf_id : (docOf fields b).id = b.id := rfl

/-- The fields that an index covers by default are texts. -/
theorem fieldText_indexed (b : Bookmark) {name : String} (h : name ∈ Bookmark.indexedFields) :
    b.fieldText name = .ok (b.textOf name) := by
  simp only [Bookmark.indexedFields, List.mem_cons, List.not_mem_nil, or_false] at h
  rcases h with rfl | rfl | rfl | rfl | rfl | rfl <;> rfl

theorem fieldTokens_indexed (b : Bookmark) {name : String} (h : name ∈ Bookmark.indexedFields) :
    fieldTokens b name = .ok (name, Text.prefixTokens (b.textOf name)) := by
  rw [fieldTokens, fieldText_indexed b h]
  rfl

/-- **Every bookmark has a document for the fields that are covered by default.** -/
theorem of_indexed (hf : ∀ name ∈ fields, name ∈ Bookmark.indexedFields) (b : Bookmark) :
    Document.of fields b = .ok (docOf fields b) := by
  rw [Document.of, mapM_of_pure fun name hn => fieldTokens_indexed b (hf name (Text.mem_distinct.mp hn))]
  rfl

/-- A document of a bookmark is made of the texts of its fields, whatever the fields. -/
theorem eq_docOf {d : Document} (h : Document.of fields b = .ok d) : d = docOf fields b := by
  obtain ⟨fs, hfs, rfl⟩ := map_eq_ok.mp h
  have htoken : ∀ name f, fieldTokens b name = .ok f → f = (name, Text.prefixTokens (b.textOf name)) := by
    intro name f hf
    obtain ⟨s, hs, rfl⟩ := map_eq_ok.mp hf
    rw [Bookmark.textOf, hs]
    rfl
  rw [docOf, eq_map_of_mapM htoken hfs]

theorem mem_places {d : Document} {name token : String} :
    (name, token) ∈ d.places ↔ ∃ tokens, (name, tokens) ∈ d.fields ∧ token ∈ tokens := by
  simp only [places, List.mem_flatMap, List.mem_map, Prod.mk.injEq, Prod.exists]
  constructor
  · rintro ⟨_, tokens, hf, _, ht, rfl, rfl⟩
    exact ⟨tokens, hf, ht⟩
  · rintro ⟨tokens, hf, ht⟩
    exact ⟨name, tokens, hf, token, ht, rfl, rfl⟩

/-- A bookmark stands under every beginning of every word of its fields. -/
theorem mem_places_docOf {name token : String} : (name, token) ∈ (docOf fields b).places ↔
    name ∈ fields ∧ token ≠ "" ∧ ∃ w ∈ Text.indexWords (b.textOf name), Text.startsWith w token = true := by
  simp only [mem_places, docOf, List.mem_map, Prod.mk.injEq, Text.mem_distinct]
  constructor
  · rintro ⟨_, ⟨_, hn, rfl, rfl⟩, ht⟩
    exact ⟨hn, Text.mem_prefixTokens.mp ht⟩
  · rintro ⟨hn, ht⟩
    exact ⟨_, ⟨name, hn, rfl, rfl⟩, Text.mem_prefixTokens.mpr ht⟩

end Document

end Shelfmark
