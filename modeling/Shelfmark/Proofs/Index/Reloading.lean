import Shelfmark.Proofs.Index.Ranking
import Shelfmark.Proofs.Index.Restoring
import Shelfmark.Proofs.Json.RoundTrip

/-!
# Reloaded indexes

An index may be written as the text of its snapshot and restored from it (`reload`).  Whatever happened to the index
before, this works, and the restored index has its fields and its documents in their order (`Restorable.reload`).  Its
postings are other ones, but from there on nobody can tell the two apart: an operation on two indexes that are alike
answers the same and leaves them alike (`Alike.apply`), and indexes that are alike are searched alike (`Alike.search`).
-/

namespace Shelfmark.Index

variable {ix ix' : Index} {b : Bookmark} {d : Document} {host : Host}

/-! ## Operations -/

/-- The index that is restored from the text of the snapshot of an index. -/
def reload (host : Host) (ix : Index) : Except Fault Index := do
  let v ← Json.parse host.room ix.snapshot.compact
  ofSnapshot host.room v

/-- An operation on an index. -/
inductive Operation
  | change (c : Change)
  | reload

/-- What a change answers: whether a document was removed, or that a bookmark could not be added. -/
def Change.answer (ix : Index) : Change → Except Fault (Option Bool)
  | add b => (ix.add b).2.map fun _ => none
  | update b => (ix.update b).2.map fun _ => none
  | remove id => .ok (some (ix.contains id))
  | clear => .ok none

namespace Operation

/-- The index after an operation; where it cannot be reloaded it stays. -/
def apply (host : Host) (ix : Index) : Operation → Index
  | change c => c.apply ix
  | reload => (ix.reload host).toOption.getD ix

/-- What an operation answers. -/
def answer (host : Host) (ix : Index) : Operation → Except Fault (Option Bool)
  | change c => c.answer ix
  | reload => (ix.reload host).map fun _ => none

/-- What some operations answer, one after the other. -/
def answers (host : Host) (ix : Index) : List Operation → List (Except Fault (Option Bool))
  | [] => []
  | o :: os => o.answer host ix :: answers host (o.apply host ix) os

end Operation

/-! ## What changes do -/

/-- A bookmark that has a document replaces its former version. -/
theorem update_of_ok (h : Document.of ix.fields b = .ok d) : ix.update b = ((ix.remove b.id).insert d, .ok ()) := by
  rw [update, insertBookmark, fields_remove, h]

/-- A bookmark that has no document is not added, but its former version is gone. -/
theorem update_of_error {e : Fault} (h : Document.of ix.fields b = .error e) :
    ix.update b = (ix.remove b.id, .error e) := by
  rw [update, insertBookmark, fields_remove, h]

/-! ## Indexes that can be restored -/

/-- A consistent index, each document of which has exactly the fields of the index, once each. -/
structure Restorable (ix : Index) : Prop where
  consistent : Consistent ix
  covers : ∀ d ∈ ix.documents, Covers ix.fields d
  named : ∀ d ∈ ix.documents, (d.fields.map Prod.fst).Nodup

theorem restorable_empty (fields : List String) : Restorable { fields } :=
  ⟨consistent_empty fields, fun _ hd => absurd hd List.not_mem_nil, fun _ hd => absurd hd List.not_mem_nil⟩

namespace Restorable

theorem remove (h : Restorable ix) (id : String) : Restorable (ix.remove id) where
  consistent := h.consistent.remove id
  covers d hd := by
    rw [fields_remove]
    exact h.covers d (mem_documents_remove.mp hd).1
  named d hd := h.named d (mem_documents_remove.mp hd).1

theorem nodup_names_docOf (fields : List String) (b : Bookmark) :
    ((Document.docOf fields b).fields.map Prod.fst).Nodup := by
  have hnames : (Document.docOf fields b).fields.map Prod.fst = Text.distinct fields := by
    simp [Document.docOf, Function.comp_def]
  rw [hnames]
  exact Text.nodup_distinct fields

theorem update (h : Restorable ix) (b : Bookmark) : Restorable (ix.update b).1 := by
  cases hd : Document.of ix.fields b with
  | error e =>
    rw [update_of_error hd]
    exact h.remove b.id
  | ok d =>
    have hconsistent := h.consistent.update b
    rw [update_of_ok hd] at hconsistent ⊢
    obtain rfl := Document.eq_docOf hd
    refine ⟨hconsistent, fun e he => ?_, fun e he => ?_⟩
    all_goals rw [documents_insert, List.mem_append, List.mem_singleton] at he
    · rw [fields_insert, fields_remove]
      rcases he with he | rfl
      · exact h.covers e (mem_documents_remove.mp he).1
      · exact covers_docOf ix.fields b
    · rcases he with he | rfl
      · exact h.named e (mem_documents_remove.mp he).1
      · exact nodup_names_docOf ix.fields b

theorem change (h : Restorable ix) (c : Change) : Restorable (c.apply ix) := by
  cases c with
  | add b => rw [Change.apply_add]; exact h.update b
  | update b => exact h.update b
  | remove id => exact h.remove id
  | clear => exact restorable_empty ix.fields

/-- The snapshot of the index is read back from its text. -/
theorem plain_snapshot (h : Restorable ix) (host : Host) : Json.Plain host.room ix.snapshot := by
  obtain ⟨room, hroom⟩ := Nat.exists_eq_add_of_le' host.room_enough
  rw [hroom]
  have hdocument : ∀ d ∈ ix.documents, Json.Plain (room + 6) (documentJson d) := by
    intro d hd
    refine .obj (by simpa [Function.comp_def] using h.named d hd) fun f hf => ?_
    obtain ⟨g, _, rfl⟩ := List.mem_map.mp hf
    exact .ofStrings g.2
  have hdocuments : Json.Plain (room + 7) (.obj (ix.documents.map fun d => (d.id, documentJson d))) := by
    refine .obj (by simpa [ids, Function.comp_def] using h.consistent.distinct) fun f hf => ?_
    obtain ⟨d, hd, rfl⟩ := List.mem_map.mp hf
    exact hdocument d hd
  have hversion : Json.Plain (room + 7) (.int snapshotVersion) := .int (Nat.succ_le_succ (Nat.zero_le 4299))
  have hnames : ["schema_version", "fields", "documents"].Nodup := by decide
  refine .obj hnames fun f hf => ?_
  simp only [List.mem_cons, List.not_mem_nil, or_false] at hf
  rcases hf with rfl | rfl | rfl
  · exact hversion
  · exact .ofStrings ix.fields
  · exact hdocuments

/-- **The index can be restored from the text of its snapshot.** -/
theorem reload (h : Restorable ix) (host : Host) :
    ix.reload host = .ok (ix.documents.foldl Index.insert { fields := ix.fields }) := by
  rw [Index.reload, Json.parse_compact (h.plain_snapshot host)]
  exact ofSnapshot_snapshot host.room h.covers

theorem restored (h : Restorable ix) : Restorable (ix.documents.foldl Index.insert { fields := ix.fields }) where
  consistent := (consistent_empty ix.fields).insertAll h.consistent.distinct
  covers d hd := by
    rw [documents_insertAll, List.nil_append] at hd
    rw [fields_insertAll]
    exact h.covers d hd
  named d hd := by
    rw [documents_insertAll, List.nil_append] at hd
    exact h.named d hd

theorem apply (h : Restorable ix) (o : Operation) : Restorable (o.apply host ix) := by
  cases o with
  | change c => exact h.change c
  | reload =>
    rw [Operation.apply, h.reload]
    exact h.restored

theorem applyAll (h : Restorable ix) (os : List Operation) : Restorable (os.foldl (Operation.apply host) ix) := by
  induction os generalizing ix with
  | nil => exact h
  | cons o os ih => exact ih (h.apply o)

end Restorable

/-! ## Indexes that are alike -/

/-- Two indexes that can be restored have the same fields and the same documents in one order. -/
structure Alike (ix ix' : Index) : Prop where
  left : Restorable ix
  right : Restorable ix'
  fields : ix'.fields = ix.fields
  documents : ix'.documents = ix.documents

namespace Alike

theorem contains (h : Alike ix ix') (id : String) : ix'.contains id = ix.contains id := by
  rw [Index.contains, Index.contains, document?, document?, h.documents]

theorem snapshot (h : Alike ix ix') : ix'.snapshot = ix.snapshot := by
  rw [Index.snapshot, Index.snapshot, h.fields, h.documents]

/-- **Indexes that are alike are searched alike:** what is found, the scores, the order, and whether a weight cannot be
added depend on the documents. -/
theorem search (h : Alike ix ix') (terms asked : List String) (boost : Boost) :
    ix'.search terms asked boost = ix.search terms asked boost := by
  have hfields : ix'.searchFields asked = ix.searchFields asked := by rw [searchFields, searchFields, h.fields]
  have hoverflows : ix'.overflows (queryWords terms) (ix.searchFields asked) (weights boost) =
      ix.overflows (queryWords terms) (ix.searchFields asked) (weights boost) := by
    rw [Bool.eq_iff_iff, overflows_iff h.right.consistent, overflows_iff h.left.consistent, h.documents]
  have hranking : ix'.ranking terms asked boost = ix.ranking terms asked boost := by
    rw [ranking_eq_mergeSort h.right.consistent, ranking_eq_mergeSort h.left.consistent, hfields, h.documents]
  rw [Index.search, Index.search, hfields, hoverflows, hranking]

theorem remove (h : Alike ix ix') (id : String) : Alike (ix.remove id) (ix'.remove id) where
  left := h.left.remove id
  right := h.right.remove id
  fields := by rw [fields_remove, fields_remove, h.fields]
  documents := by rw [documents_remove, documents_remove, h.documents]

theorem update (h : Alike ix ix') (b : Bookmark) :
    (ix'.update b).2 = (ix.update b).2 ∧ Alike (ix.update b).1 (ix'.update b).1 := by
  have hleft := h.left.update b
  have hright := h.right.update b
  have hremove := h.remove b.id
  cases hd : Document.of ix.fields b with
  | error e =>
    rw [update_of_error hd, update_of_error (h.fields ▸ hd)]
    exact ⟨rfl, hremove⟩
  | ok d =>
    rw [update_of_ok hd] at hleft ⊢
    rw [update_of_ok (h.fields ▸ hd)] at hright ⊢
    refine ⟨rfl, hleft, hright, hremove.fields, ?_⟩
    rw [documents_insert, documents_insert, hremove.documents]

theorem reload (h : Alike ix ix') (host : Host) : ix'.reload host = ix.reload host := by
  rw [h.right.reload, h.left.reload, h.fields, h.documents]

/-- **An operation on two indexes that are alike answers the same and leaves them alike.** -/
theorem apply (h : Alike ix ix') (o : Operation) :
    o.answer host ix' = o.answer host ix ∧ Alike (o.apply host ix) (o.apply host ix') := by
  cases o with
  | change c =>
    cases c with
    | add b =>
      obtain ⟨hanswer, hupdate⟩ := h.update b
      simp only [Operation.answer, Operation.apply, Change.answer, Change.apply, add_eq_update, hanswer]
      exact ⟨trivial, hupdate⟩
    | update b =>
      obtain ⟨hanswer, hupdate⟩ := h.update b
      simp only [Operation.answer, Operation.apply, Change.answer, Change.apply, hanswer]
      exact ⟨trivial, hupdate⟩
    | remove id =>
      have hanswer : (Change.remove id).answer ix' = (Change.remove id).answer ix := by
        rw [Change.answer, Change.answer, h.contains]
      exact ⟨hanswer, h.remove id⟩
    | clear => exact ⟨rfl, restorable_empty _, restorable_empty _, h.fields, rfl⟩
  | reload =>
    rw [Operation.answer, Operation.answer, Operation.apply, Operation.apply, h.reload, h.left.reload]
    exact ⟨rfl, h.left.restored, h.left.restored, rfl, rfl⟩

theorem applyAll (h : Alike ix ix') (os : List Operation) :
    Operation.answers host ix' os = Operation.answers host ix os ∧
      Alike (os.foldl (Operation.apply host) ix) (os.foldl (Operation.apply host) ix') := by
  induction os generalizing ix ix' with
  | nil => exact ⟨rfl, h⟩
  | cons o os ih =>
    obtain ⟨hanswer, hstep⟩ := h.apply o
    obtain ⟨hanswers, hrest⟩ := ih hstep
    exact ⟨by rw [Operation.answers, Operation.answers, hanswer, hanswers], hrest⟩

end Alike

theorem alike_restored (h : Restorable ix) : Alike ix (ix.documents.foldl insert { fields := ix.fields }) :=
  ⟨h, h.restored, fields_insertAll, documents_insertAll⟩

/-- **A restored index is indistinguishable from the original.**  Whatever was done to an index before, it can be
restored from the text of its snapshot, with its fields and its documents in their order; and whatever is done to both
afterwards, both answer the same all the way, and then have the same documents, the same snapshot and the same size, and
find the same with the same scores in the same order.  Scores that are no numbers have no order, so where there is one
only what is found is the same. -/
theorem reload_indistinguishable (host : Host) (fields : List String) (before : List Operation) :
    let ix := before.foldl (Operation.apply host) { fields }
    ∃ restored, ix.reload host = .ok restored ∧ restored.fields = ix.fields ∧ restored.documents = ix.documents ∧
      ∀ later : List Operation, Operation.answers host restored later = Operation.answers host ix later ∧
        let ix₁ := later.foldl (Operation.apply host) ix
        let ix₂ := later.foldl (Operation.apply host) restored
        ix₂.size = ix₁.size ∧ (∀ id, ix₂.contains id = ix₁.contains id) ∧ ix₂.snapshot = ix₁.snapshot ∧
          ∀ terms asked boost,
            (∀ e, ix₂.search terms asked boost = .error e ↔ ix₁.search terms asked boost = .error e) ∧
            (∀ id, (∃ hits, ix₂.search terms asked boost = .ok hits ∧ id ∈ hits.map Prod.fst) ↔
              ∃ hits, ix₁.search terms asked boost = .ok hits ∧ id ∈ hits.map Prod.fst) ∧
            ((∀ hits, ix₁.search terms asked boost = .ok hits → ∀ r ∈ hits, r.2.isNaN = false) →
              ix₂.search terms asked boost = ix₁.search terms asked boost) := by
  intro ix
  have h : Restorable ix := (restorable_empty fields).applyAll before
  have hrestored := alike_restored h
  refine ⟨_, h.reload host, hrestored.fields, hrestored.documents, fun later => ?_⟩
  obtain ⟨hanswers, hlater⟩ := hrestored.applyAll later
  refine ⟨hanswers, congrArg List.length hlater.documents, hlater.contains, hlater.snapshot,
    fun terms asked boost => ?_⟩
  have hsearch := hlater.search terms asked boost
  exact ⟨fun e => by rw [hsearch], fun id => by rw [hsearch], fun _ => hsearch⟩

end Shelfmark.Index
