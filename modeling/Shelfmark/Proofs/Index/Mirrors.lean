import Shelfmark.Proofs.Index.Restoring

/-!
# Indexes that mirror bookmarks

An index mirrors some bookmarks if it holds the document of each of them and no other (`Index.Mirrors`).  While a
bookmark has changed and the index does not know yet, the document with its id is left out of account; while several
have, those with their ids are (`Index.MirrorsBut`).

- The index that is built from the bookmarks mirrors them (`mirrors_ofBookmarks`), and so does what is read back from
  the snapshot of an index that does (`Mirrors.ofSnapshot`);
- putting the changed bookmark into the index, or removing the document of a bookmark that is gone, makes the index
  mirror the bookmarks again (`Mirrors.update`, `Mirrors.remove`).
-/

namespace Shelfmark.Index

variable {ix : Index} {b : Bookmark} {bs bs' : List Bookmark} {id : String} {pending : Option String}
  {P P' : String → Prop}

/-- The index holds the documents of the bookmarks and no others, apart from the pending id. -/
structure Mirrors (pending : Option String) (ix : Index) (bs : List Bookmark) : Prop where
  fields : ix.fields = Bookmark.indexedFields
  consistent : Consistent ix
  covers : ∀ d ∈ ix.documents, Covers ix.fields d
  documents : ∀ d, pending ≠ some d.id → (d ∈ ix.documents ↔ ∃ b ∈ bs, d = Document.docOf Bookmark.indexedFields b)

/-- The index holds the documents of the bookmarks and no others, apart from some ids. -/
structure MirrorsBut (P : String → Prop) (ix : Index) (bs : List Bookmark) : Prop where
  fields : ix.fields = Bookmark.indexedFields
  consistent : Consistent ix
  covers : ∀ d ∈ ix.documents, Covers ix.fields d
  documents : ∀ d, ¬P d.id → (d ∈ ix.documents ↔ ∃ b ∈ bs, d = Document.docOf Bookmark.indexedFields b)

theorem mirrors_iff : Mirrors pending ix bs ↔ MirrorsBut (pending = some ·) ix bs :=
  ⟨fun h => ⟨h.fields, h.consistent, h.covers, h.documents⟩, fun h => ⟨h.fields, h.consistent, h.covers, h.documents⟩⟩

theorem MirrorsBut.mono (h : MirrorsBut P ix bs) (hP : ∀ id, P id → P' id) : MirrorsBut P' ix bs :=
  ⟨h.fields, h.consistent, h.covers, fun d hd => h.documents d fun hp => hd (hP _ hp)⟩

theorem MirrorsBut.mirrors (h : MirrorsBut P ix bs) (hP : ∀ id, ¬P id) : Mirrors none ix bs :=
  mirrors_iff.mpr (h.mono fun id hp => absurd hp (hP id))

theorem Mirrors.but (h : Mirrors none ix bs) (P : String → Prop) : MirrorsBut P ix bs :=
  (mirrors_iff.mp h).mono (by simp)

theorem Mirrors.weaken (h : Mirrors none ix bs) (pending : Option String) : Mirrors pending ix bs :=
  mirrors_iff.mpr (h.but _)

/-- Only a bookmark that is left out of account has changed. -/
theorem MirrorsBut.await (h : MirrorsBut P ix bs) (hid : P id) (hbs : ∀ c, c.id ≠ id → (c ∈ bs' ↔ c ∈ bs)) :
    MirrorsBut P ix bs' := by
  refine ⟨h.fields, h.consistent, h.covers, fun d hd => ?_⟩
  rw [h.documents d hd]
  have hne : ∀ c : Bookmark, d = Document.docOf Bookmark.indexedFields c → c.id ≠ id := by
    rintro c rfl he
    exact hd (by rwa [Document.docOf_id, he])
  constructor
  · rintro ⟨c, hc, he⟩
    exact ⟨c, (hbs c (hne c he)).mpr hc, he⟩
  · rintro ⟨c, hc, he⟩
    exact ⟨c, (hbs c (hne c he)).mp hc, he⟩

/-- Only the bookmark with the id has changed. -/
theorem Mirrors.await (h : Mirrors none ix bs) (hbs : ∀ c, c.id ≠ id → (c ∈ bs' ↔ c ∈ bs)) :
    Mirrors (some id) ix bs' :=
  mirrors_iff.mpr ((h.but _).await rfl hbs)

/-! ## Changes -/

theorem of_indexedFields (h : ix.fields = Bookmark.indexedFields) (b : Bookmark) :
    Document.of ix.fields b = .ok (Document.docOf Bookmark.indexedFields b) := by
  rw [h]
  exact Document.of_indexed (fun _ hn => hn) b

theorem mem_documents_update {d : Document} (h : ix.fields = Bookmark.indexedFields) :
    d ∈ (ix.update b).1.documents ↔
      (d ∈ ix.documents ∧ d.id ≠ b.id) ∨ d = Document.docOf Bookmark.indexedFields b := by
  simp [documents_update (of_indexedFields h b)]

/-- A bookmark is put into the index, and taken into account if it is one of the bookmarks. -/
theorem MirrorsBut.update (h : MirrorsBut P ix bs) (hP : ∀ id, P id → id ≠ b.id → P' id) (hb : ¬P' b.id → b ∈ bs)
    (hn : (bs.map (·.id)).Nodup) : MirrorsBut P' (ix.update b).1 bs := by
  refine ⟨fields_update.trans h.fields, h.consistent.update b, fun d hd => ?_, fun d hd => ?_⟩
  · rw [fields_update]
    rcases (mem_documents_update h.fields).mp hd with ⟨hd, _⟩ | rfl
    · exact h.covers d hd
    · rw [h.fields]
      exact covers_docOf _ b
  · rw [mem_documents_update h.fields]
    constructor
    · rintro (⟨hmem, hne⟩ | rfl)
      · exact (h.documents d fun hp => hd (hP _ hp hne)).mp hmem
      · exact ⟨b, hb hd, rfl⟩
    · rintro ⟨c, hc, rfl⟩
      rw [Document.docOf_id] at hd ⊢
      by_cases hid : c.id = b.id
      · exact Or.inr (by rw [List.inj_on_of_nodup_map hn hc (hb (hid ▸ hd)) hid])
      · exact Or.inl ⟨(h.documents _ fun hp => hd (hP _ hp hid)).mpr ⟨c, hc, rfl⟩, hid⟩

/-- A document is removed, and its id taken into account if no bookmark has it. -/
theorem MirrorsBut.remove (h : MirrorsBut P ix bs) (hP : ∀ x, P x → x ≠ id → P' x)
    (hid : ¬P' id → ∀ c ∈ bs, c.id ≠ id) : MirrorsBut P' (ix.remove id) bs := by
  refine ⟨fields_remove.trans h.fields, h.consistent.remove id, fun d hd => ?_, fun d hd => ?_⟩
  · rw [fields_remove]
    exact h.covers d (mem_documents_remove.mp hd).1
  · rw [mem_documents_remove]
    constructor
    · rintro ⟨hmem, hne⟩
      exact (h.documents d fun hp => hd (hP _ hp hne)).mp hmem
    · rintro ⟨c, hc, rfl⟩
      rw [Document.docOf_id] at hd ⊢
      have hne : c.id ≠ id := fun he => hid (he ▸ hd) c hc he
      exact ⟨(h.documents _ fun hp => hd (hP _ hp hne)).mpr ⟨c, hc, rfl⟩, hne⟩

/-- A changed bookmark is put into the index. -/
theorem Mirrors.update (h : Mirrors (some b.id) ix bs) (hb : b ∈ bs) (hn : (bs.map (·.id)).Nodup) :
    Mirrors none (ix.update b).1 bs := by
  have hm : MirrorsBut (fun _ => False) (ix.update b).1 bs :=
    (mirrors_iff.mp h).update (fun _ hp hne => hne (Option.some.inj hp).symm) (fun _ => hb) hn
  exact hm.mirrors fun _ => False.elim

/-- The document of a bookmark that is gone is removed. -/
theorem Mirrors.remove (h : Mirrors (some id) ix bs) (hid : ∀ c ∈ bs, c.id ≠ id) : Mirrors none (ix.remove id) bs := by
  have hm : MirrorsBut (fun _ => False) (ix.remove id) bs :=
    (mirrors_iff.mp h).remove (fun _ hp hne => hne (Option.some.inj hp).symm) fun _ => hid
  exact hm.mirrors fun _ => False.elim

/-! ## Building and restoring -/

theorem live_map_add (hn : (bs.map (·.id)).Nodup) : live (bs.map Change.add) = bs := by
  induction bs using List.reverseRecOn with
  | nil => rfl
  | append_singleton bs b ih =>
    rw [List.map_append, List.nodup_append] at hn
    obtain ⟨hn, _, hdisjoint⟩ := hn
    rw [List.map_append, List.map_singleton, live_snoc, ih hn]
    have hfilter : bs.filter (fun c => c.id != b.id) = bs := by
      refine List.filter_eq_self.mpr fun c hc => ?_
      simpa using hdisjoint c.id (List.mem_map_of_mem hc) b.id (by simp)
    simp [Change.live, hfilter]

theorem ofBookmarks_eq_after (bs : List Bookmark) :
    ofBookmarks bs = after Bookmark.indexedFields (bs.map Change.add) := by
  rw [after, List.foldl_map]
  rfl

/-- The index that is built from bookmarks holds them in their order. -/
theorem holds_ofBookmarks (hn : (bs.map (·.id)).Nodup) : Holds (ofBookmarks bs) bs := by
  have h : Holds (after Bookmark.indexedFields (bs.map Change.add)) (live (bs.map Change.add)) :=
    after_holds (fun _ hn => hn) _
  rwa [live_map_add hn, ← ofBookmarks_eq_after] at h

/-- **The index that is built from some bookmarks mirrors them.** -/
theorem mirrors_ofBookmarks (hn : (bs.map (·.id)).Nodup) : Mirrors none (ofBookmarks bs) bs := by
  have h := holds_ofBookmarks hn
  have hf : (ofBookmarks bs).fields = Bookmark.indexedFields := by rw [ofBookmarks_eq_after, fields_after]
  refine ⟨hf, h.consistent, fun d hd => ?_, fun d _ => ?_⟩
  · rw [h.documents] at hd
    obtain ⟨b, _, rfl⟩ := List.mem_map.mp hd
    exact covers_docOf _ b
  · rw [h.documents, hf]
    simp only [List.mem_map, eq_comm]

/-- **What is read back from the snapshot of an index mirrors the same bookmarks, and has the same snapshot.** -/
theorem Mirrors.ofSnapshot (room : Nat) (h : Mirrors pending ix bs) :
    ∃ ix', Index.ofSnapshot room ix.snapshot = .ok ix' ∧ ix'.snapshot = ix.snapshot ∧ Mirrors pending ix' bs := by
  have hd : (ix.documents.foldl insert { fields := ix.fields }).documents = ix.documents := by simp
  have hf : (ix.documents.foldl insert { fields := ix.fields }).fields = ix.fields := by simp
  refine ⟨_, ofSnapshot_snapshot room h.covers, ?_, hf.trans h.fields, ?_, ?_, ?_⟩
  · rw [snapshot, snapshot, hd, hf]
  · exact (consistent_empty ix.fields).insertAll h.consistent.distinct
  · rw [hd, hf]
    exact h.covers
  · rw [hd]
    exact h.documents

end Shelfmark.Index
