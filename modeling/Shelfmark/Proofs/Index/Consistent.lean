import Mathlib.Data.List.Nodup
import Shelfmark.Index.Basic
import Shelfmark.Proofs.Order.Keyed
import Shelfmark.Proofs.Index.Postings

/-!
# Consistent indexes

An index is consistent if its documents have different ids and its postings list exactly the places of its documents
(`Index.Consistent`).  The empty index is consistent, and every change keeps an index consistent: adding a document
(`Consistent.insert`), removing one (`Consistent.remove`), and a bookmark in place of its former version
(`Consistent.update`).
-/

namespace Shelfmark.Index

variable {ix : Index} {d : Document} {b : Bookmark} {id : String}

/-- The ids of the documents. -/
def ids (ix : Index) : List String := ix.documents.map (·.id)

/-- Documents have different ids, and the postings list their places and nothing else. -/
structure Consistent (ix : Index) : Prop where
  distinct : ix.ids.Nodup
  posted : ∀ id place, id ∈ ix.postings.idsAt place ↔ ∃ d ∈ ix.documents, d.id = id ∧ place ∈ d.places
  tidy : Postings.Tidy ix.postings

theorem consistent_empty (fields : List String) : Consistent { fields } :=
  ⟨List.nodup_nil, fun id place => by simp [Postings.idsAt], Postings.tidy_empty⟩

/-! ## Documents by id -/

theorem document?_eq_none : ix.document? id = none ↔ id ∉ ix.ids := by
  simp [document?, ids]

theorem contains_iff : ix.contains id = true ↔ id ∈ ix.ids := by
  rw [contains, Option.isSome_iff_ne_none, ne_eq, document?_eq_none, not_not]

theorem document?_eq_some (h : Consistent ix) : ix.document? id = some d ↔ d ∈ ix.documents ∧ d.id = id :=
  find?_key_eq_some_iff h.distinct

/-! ## Adding a document -/

@[simp] theorem fields_insert : (ix.insert d).fields = ix.fields := rfl

@[simp] theorem documents_insert : (ix.insert d).documents = ix.documents ++ [d] := rfl

@[simp] theorem ids_insert : (ix.insert d).ids = ix.ids ++ [d.id] := by simp [ids]

/-- A document with a new id keeps an index consistent. -/
theorem Consistent.insert (h : Consistent ix) (hd : d.id ∉ ix.ids) : Consistent (ix.insert d) where
  distinct := by
    rw [ids_insert, List.nodup_append]
    refine ⟨h.distinct, by simp, fun a ha b hb => ?_⟩
    rw [List.mem_singleton.mp hb]
    exact fun he => hd (he ▸ ha)
  posted id place := by
    show id ∈ Postings.idsAt (d.places.foldl (Postings.post d.id) ix.postings) place ↔ _
    rw [Postings.mem_idsAt_postAll, h.posted, documents_insert]
    have hid : id = d.id ↔ d.id = id := eq_comm
    simp only [List.mem_append, List.mem_singleton, or_and_right, exists_or, exists_eq_left, hid]
  tidy := h.tidy.postAll d.id d.places

/-! ## Removing a document -/

theorem remove_of_not_mem (h : id ∉ ix.ids) : ix.remove id = ix := by
  rw [remove, document?_eq_none.mpr h]

@[simp] theorem fields_remove : (ix.remove id).fields = ix.fields := by
  unfold remove
  split <;> rfl

theorem documents_remove (ix : Index) (id : String) :
    (ix.remove id).documents = ix.documents.filter fun d => d.id != id := by
  unfold remove
  split
  · rename_i h
    refine (List.filter_eq_self.mpr fun d hd => ?_).symm
    have hne : d.id ≠ id := fun he => document?_eq_none.mp h (he ▸ List.mem_map_of_mem hd)
    simpa using hne
  · rfl

theorem mem_documents_remove : d ∈ (ix.remove id).documents ↔ d ∈ ix.documents ∧ d.id ≠ id := by
  simp [documents_remove]

theorem mem_ids_remove {id' : String} : id' ∈ (ix.remove id).ids ↔ id' ∈ ix.ids ∧ id' ≠ id := by
  simp only [ids, List.mem_map, mem_documents_remove]
  constructor
  · rintro ⟨d, ⟨hd, hne⟩, rfl⟩
    exact ⟨⟨d, hd, rfl⟩, hne⟩
  · rintro ⟨⟨d, hd, rfl⟩, hne⟩
    exact ⟨d, ⟨hd, hne⟩, rfl⟩

/-- Removing a document keeps an index consistent. -/
theorem Consistent.remove (h : Consistent ix) (id : String) : Consistent (ix.remove id) := by
  cases hd : ix.document? id with
  | none =>
    rw [remove_of_not_mem (document?_eq_none.mp hd)]
    exact h
  | some d =>
    obtain ⟨hm, rfl⟩ := (document?_eq_some h).mp hd
    have hp : (ix.remove d.id).postings = d.places.foldl (Postings.unpost d.id) ix.postings := by
      simp only [Index.remove, hd]
    refine ⟨?_, fun id' place => ?_, ?_⟩
    · rw [ids, documents_remove]
      exact h.distinct.sublist (List.filter_sublist.map _)
    · rw [hp, Postings.mem_idsAt_unpostAll h.tidy, h.posted]
      constructor
      · rintro ⟨⟨e, he, rfl, hplace⟩, hne⟩
        -- a document with the id is the removed one, whose places were cleared
        refine ⟨e, mem_documents_remove.mpr ⟨he, fun hid => hne ⟨hid, ?_⟩⟩, rfl, hplace⟩
        rw [← List.inj_on_of_nodup_map h.distinct he hm hid]
        exact hplace
      · rintro ⟨e, he, rfl, hplace⟩
        obtain ⟨he, hne⟩ := mem_documents_remove.mp he
        exact ⟨⟨e, he, rfl, hplace⟩, fun hid => hne hid.1⟩
    · rw [hp]
      exact h.tidy.unpostAll d.id d.places

/-! ## Bookmarks -/

theorem insertBookmark_ok (h : Document.of ix.fields b = .ok d) : ix.insertBookmark b = (ix.insert d, .ok ()) := by
  simp [insertBookmark, h]

/-- **Adding a bookmark and updating it are the same.** -/
theorem add_eq_update (ix : Index) (b : Bookmark) : ix.add b = ix.update b := by
  unfold add update
  split
  · rfl
  · rename_i h
    rw [contains_iff] at h
    rw [remove_of_not_mem h]

@[simp] theorem fields_update : (ix.update b).1.fields = ix.fields := by
  unfold update insertBookmark
  split <;> simp

theorem id_of_document (h : Document.of ix.fields b = .ok d) : d.id = b.id := by
  unfold Document.of at h
  cases hf : (Text.distinct ix.fields).mapM (Document.fieldTokens b) with
  | error e => rw [hf] at h; cases h
  | ok fs => rw [hf] at h; cases h; rfl

/-- A bookmark in place of its former version keeps an index consistent. -/
theorem Consistent.update (h : Consistent ix) (b : Bookmark) : Consistent (ix.update b).1 := by
  unfold Index.update insertBookmark
  split
  · rename_i d hd
    refine (h.remove b.id).insert fun hm => ?_
    exact (mem_ids_remove.mp hm).2 (id_of_document hd)
  · exact h.remove b.id

/-- The documents after an update: those of other bookmarks, and the new one at the end. -/
theorem documents_update (h : Document.of ix.fields b = .ok d) :
    (ix.update b).1.documents = (ix.documents.filter fun e => e.id != b.id) ++ [d] := by
  have h' : Document.of (ix.remove b.id).fields b = .ok d := by rwa [fields_remove]
  rw [update, insertBookmark_ok h', documents_insert, documents_remove]

end Shelfmark.Index
