import Shelfmark.Proofs.History
import Shelfmark.Proofs.Index.Consistent
import Shelfmark.Proofs.Index.Documents

/-!
# Runs of changes

Bookmarks are added, updated and removed in any order, and the index may be cleared in between (`Change`).  After any
run of changes the index is consistent and holds the documents of the live bookmarks (`after_holds`): the last
version of each bookmark, in the order in which those came (`mem_live`).
-/

namespace Shelfmark.Index

/-- A change of an index. -/
inductive Change
  | add (b : Bookmark)
  | update (b : Bookmark)
  | remove (id : String)
  | clear

namespace Change

/-- The index after a change. -/
def apply (ix : Index) : Change → Index
  | add b => (ix.add b).1
  | update b => (ix.update b).1
  | remove id => ix.remove id
  | clear => ix.clear

/-- The bookmarks that are live after a change: a new version comes last. -/
def live (bs : List Bookmark) : Change → List Bookmark
  | add b | update b => (bs.filter fun c => c.id != b.id) ++ [b]
  | remove id => bs.filter fun c => c.id != id
  | clear => []

/-- The change makes the bookmark live. -/
def Puts (c : Change) (b : Bookmark) : Prop := c = add b ∨ c = update b

/-- The change ends the version of the bookmark with an id. -/
def Ends (id : String) : Change → Prop
  | add b | update b => b.id = id
  | remove id' => id' = id
  | clear => True

end Change

/-- The index with some fields after some changes. -/
def after (fields : List String) (cs : List Change) : Index := cs.foldl Change.apply { fields }

/-- The bookmarks that are live after some changes. -/
def live (cs : List Change) : List Bookmark := cs.foldl Change.live []

/-! ## Live bookmarks -/

section Live

variable {b : Bookmark} {bs : List Bookmark} {c : Change} {cs : List Change}

theorem mem_replaced {d : Bookmark} :
    b ∈ (bs.filter fun c => c.id != d.id) ++ [d] ↔ d = b ∨ b ∈ bs ∧ d.id ≠ b.id := by
  rw [List.mem_append, List.mem_filter, List.mem_singleton, bne_iff_ne, or_comm, eq_comm, ne_comm]

theorem Change.mem_live : b ∈ c.live bs ↔ c.Puts b ∨ b ∈ bs ∧ ¬c.Ends b.id := by
  cases c with
  | add d | update d =>
    simp only [Change.live, Puts, Ends, add.injEq, update.injEq, reduceCtorEq, or_false, false_or]
    exact mem_replaced
  | remove id =>
    simp only [Change.live, List.mem_filter, bne_iff_ne, Puts, Ends, reduceCtorEq, or_false, false_or]
    rw [ne_comm]
  | clear => simp [Change.live, Puts, Ends]

theorem live_snoc (cs : List Change) (c : Change) : live (cs ++ [c]) = c.live (live cs) := by
  simp [live]

/-- **A version of a bookmark is live if a change put it there and no later change ended it.** -/
theorem mem_live : b ∈ live cs ↔
    ∃ before c later, cs = before ++ c :: later ∧ c.Puts b ∧ ∀ c' ∈ later, ¬c'.Ends b.id := by
  show b ∈ live cs ↔ Lasts (·.Puts b) (·.Ends b.id) cs
  induction cs using List.reverseRecOn with
  | nil => simp [live, not_lasts_nil]
  | append_singleton cs c ih => rw [live_snoc, Change.mem_live, ih, lasts_snoc]

end Live

/-! ## The index of the live bookmarks -/

theorem Change.apply_add (ix : Index) (b : Bookmark) : (add b).apply ix = (update b).apply ix :=
  congrArg Prod.fst (add_eq_update ix b)

/-- A change keeps an index consistent. -/
theorem Consistent.apply {ix : Index} (h : Consistent ix) (c : Change) : Consistent (c.apply ix) := by
  cases c with
  | add b => rw [Change.apply_add]; exact h.update b
  | update b => exact h.update b
  | remove id => exact h.remove id
  | clear => exact consistent_empty ix.fields

/-- A consistent index that holds the documents of some bookmarks, in their order. -/
structure Holds (ix : Index) (bs : List Bookmark) : Prop where
  consistent : Consistent ix
  documents : ix.documents = bs.map (Document.docOf ix.fields)

section Holds

variable {ix : Index} {bs : List Bookmark} {fields : List String}

theorem holds_empty (fields : List String) : Holds { fields } [] := ⟨consistent_empty fields, rfl⟩

theorem filter_docOf (fields : List String) (id : String) (bs : List Bookmark) :
    (bs.map (Document.docOf fields)).filter (fun d => d.id != id) =
      (bs.filter fun b => b.id != id).map (Document.docOf fields) := by
  rw [List.filter_map]
  rfl

theorem Holds.remove (h : Holds ix bs) (id : String) : Holds (ix.remove id) (bs.filter fun b => b.id != id) :=
  ⟨h.consistent.remove id, by rw [documents_remove, h.documents, filter_docOf, fields_remove]⟩

theorem Holds.update (h : Holds ix bs) (hf : ∀ name ∈ ix.fields, name ∈ Bookmark.indexedFields) (b : Bookmark) :
    Holds (ix.update b).1 ((bs.filter fun c => c.id != b.id) ++ [b]) := by
  refine ⟨h.consistent.update b, ?_⟩
  rw [documents_update (Document.of_indexed hf b), h.documents, filter_docOf, fields_update]
  simp

/-- A change of the index and of the live bookmarks. -/
theorem Holds.apply (h : Holds ix bs) (hf : ∀ name ∈ ix.fields, name ∈ Bookmark.indexedFields) (c : Change) :
    Holds (c.apply ix) (c.live bs) := by
  cases c with
  | add b => rw [Change.apply_add]; exact h.update hf b
  | update b => exact h.update hf b
  | remove id => exact h.remove id
  | clear => exact holds_empty ix.fields

@[simp] theorem Change.fields_apply (c : Change) : (c.apply ix).fields = ix.fields := by
  cases c with
  | add b => rw [Change.apply_add]; exact fields_update
  | update b => exact fields_update
  | remove id => exact fields_remove
  | clear => rfl

theorem fields_foldl_apply (cs : List Change) : (cs.foldl Change.apply ix).fields = ix.fields := by
  induction cs generalizing ix with
  | nil => rfl
  | cons c cs ih => rw [List.foldl_cons, ih, Change.fields_apply]

@[simp] theorem fields_after (fields : List String) (cs : List Change) : (after fields cs).fields = fields :=
  fields_foldl_apply cs

theorem Holds.applyAll (h : Holds ix bs) (hf : ∀ name ∈ ix.fields, name ∈ Bookmark.indexedFields)
    (cs : List Change) : Holds (cs.foldl Change.apply ix) (cs.foldl Change.live bs) := by
  induction cs generalizing ix bs with
  | nil => exact h
  | cons c cs ih => exact ih (h.apply hf c) (by simpa using hf)

/-- **After any run of changes the index holds the documents of the live bookmarks.** -/
theorem after_holds (hf : ∀ name ∈ fields, name ∈ Bookmark.indexedFields) (cs : List Change) :
    Holds (after fields cs) (live cs) := (holds_empty fields).applyAll hf cs

end Holds

end Shelfmark.Index
