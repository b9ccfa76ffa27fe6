import Shelfmark.Index.Snapshot
import Shelfmark.Proofs.Index.Changes
import Shelfmark.Proofs.Json.Bounds

/-!
# Restored indexes

- An index that is read from a snapshot has the documents of the snapshot and is consistent if the snapshot names
  each document once (`consistent_ofSnapshot`);
- the snapshot of an index can be read, and gives back the fields and the documents (`ofSnapshot_snapshot`).
-/

namespace Shelfmark.Index

variable {ix : Index} {d : Document} {ds : List Document} {fields : List String} {v : Json} {room : Nat}

/-! ## Documents one after the other -/

@[simp] theorem fields_insertAll : (ds.foldl insert ix).fields = ix.fields := by
  induction ds generalizing ix with
  | nil => rfl
  | cons d ds ih => rw [List.foldl_cons, ih, fields_insert]

@[simp] theorem documents_insertAll : (ds.foldl insert ix).documents = ix.documents ++ ds := by
  induction ds generalizing ix with
  | nil => simp
  | cons d ds ih => rw [List.foldl_cons, ih, documents_insert, List.append_assoc, List.singleton_append]

/-- Documents with different new ids keep an index consistent. -/
theorem Consistent.insertAll (h : Consistent ix) (hn : (ix.ids ++ ds.map (·.id)).Nodup) :
    Consistent (ds.foldl Index.insert ix) := by
  induction ds generalizing ix with
  | nil => exact h
  | cons d ds ih =>
    rw [List.map_cons, List.append_cons] at hn
    refine ih (h.insert fun hm => ?_) (by rwa [ids_insert])
    exact List.disjoint_of_nodup_append (List.nodup_append.mp hn).1 hm (List.mem_singleton_self d.id)

/-! ## Reading a snapshot -/

/-- The documents of a snapshot, by id. -/
def snapshotDocuments (v : Json) : List (String × Json) :=
  match v.get "documents" with
  | .obj documents => documents
  | _ => []

theorem id_readDocument {names : List Json} {id : String} (h : readDocument room names id v = .ok d) : d.id = id := by
  unfold readDocument at h
  split at h
  · cases h
  · split at h
    · split at h
      · obtain ⟨fs, _, rfl⟩ := map_eq_ok.mp h
        rfl
      · cases h
    · cases h

theorem lookup_of_snapshotPart {part : String} {entries : List (String × Json)}
    (h : snapshotPart part entries = .ok v) : Json.lookup part entries = some v := by
  unfold snapshotPart at h
  split at h <;> cases h
  assumption

/-- An index that is read holds the documents of the snapshot, by the ids that the snapshot gives them. -/
theorem ofSnapshot_ok (h : ofSnapshot room v = .ok ix) : ∃ (fields : List String) (ds : List Document),
    ix = ds.foldl insert { fields } ∧ ds.map (·.id) = (snapshotDocuments v).map Prod.fst := by
  unfold ofSnapshot at h
  split at h
  · rename_i entries
    simp only at h
    split at h
    · obtain ⟨names, _, h⟩ := bind_eq_ok.mp h
      split at h
      · obtain ⟨_, hfields, h⟩ := bind_eq_ok.mp h
        cases hfields
        obtain ⟨part, hpart, h⟩ := bind_eq_ok.mp h
        split at h
        · rename_i documents
          obtain ⟨ds, hds, h⟩ := bind_eq_ok.mp h
          cases h
          have hdocs : snapshotDocuments (.obj entries) = documents := by
            simp [snapshotDocuments, Json.get, Json.get?, lookup_of_snapshotPart hpart]
          exact ⟨_, ds, rfl, hdocs ▸ map_of_mapM (fun _ _ hd => id_readDocument hd) hds⟩
        · cases h
      · obtain ⟨_, hfields, _⟩ := bind_eq_ok.mp h
        cases hfields
    · obtain ⟨_, _, h⟩ := bind_eq_ok.mp h
      cases h
  · cases h

/-- **An index that is read from a snapshot is consistent if the snapshot names each document once.** -/
theorem consistent_ofSnapshot (h : ofSnapshot room v = .ok ix) (hn : ((snapshotDocuments v).map Prod.fst).Nodup) :
    Consistent ix := by
  obtain ⟨fields, ds, rfl, hids⟩ := ofSnapshot_ok h
  refine (consistent_empty fields).insertAll ?_
  rw [hids]
  exact hn

/-- An index that comes about by any changes of a new index or of one that was read from a snapshot. -/
inductive Reachable : Index → Prop
  | new (fields : List String) : Reachable { fields }
  | restored {room : Nat} {v : Json} {ix : Index} (h : ofSnapshot room v = .ok ix)
      (hn : ((snapshotDocuments v).map Prod.fst).Nodup) : Reachable ix
  | change {ix : Index} (c : Change) (h : Reachable ix) : Reachable (c.apply ix)

theorem Reachable.consistent (h : Reachable ix) : Consistent ix := by
  induction h with
  | new fields => exact consistent_empty fields
  | restored h hn => exact consistent_ofSnapshot h hn
  | change c _ ih => exact ih.apply c

/-! ## Reading back -/

/-- The document has exactly the fields of an index. -/
def Covers (fields : List String) (d : Document) : Prop :=
  sameMembers (d.fields.map fun f => .str f.1) (fields.map .str) = true

theorem same_str (s t : String) : (Json.str s).same (.str t) = (s == t) := by
  simp [Json.same]

/-- Texts are found among texts. -/
theorem any_same_str (s : String) (ts : List String) : (ts.map Json.str).any (Json.str s).same = ts.contains s := by
  rw [List.any_map, List.contains_eq_any_beq]
  exact congrArg (List.any ts) (funext (same_str s))

theorem sameMembers_iff {xs ys : List String} :
    sameMembers (xs.map .str) (ys.map .str) = true ↔ ∀ name, name ∈ xs ↔ name ∈ ys := by
  simp only [sameMembers, List.all_map, Function.comp_def, any_same_str, Bool.and_eq_true, List.all_eq_true,
    List.contains_iff_mem]
  exact ⟨fun h name => ⟨h.1 name, h.2 name⟩, fun h => ⟨fun name => (h name).mp, fun name => (h name).mpr⟩⟩

theorem covers_iff : Covers fields d ↔ ∀ name, name ∈ d.fields.map Prod.fst ↔ name ∈ fields := by
  have hnames : (d.fields.map fun f => Json.str f.1) = (d.fields.map Prod.fst).map Json.str := by
    rw [List.map_map]
    rfl
  rw [Covers, hnames, sameMembers_iff]

theorem covers_docOf (fields : List String) (b : Bookmark) : Covers fields (Document.docOf fields b) := by
  have hnames : (Document.docOf fields b).fields.map Prod.fst = Text.distinct fields := by
    simp [Document.docOf, Function.comp_def]
  exact covers_iff.mpr fun name => by rw [hnames, Text.mem_distinct]

theorem names?_arr {ms : List Json} (h : ∀ m ∈ ms, isName m = true) : names? (.arr ms) = some ms := by
  have hall : ms.all isName = true := List.all_eq_true.mpr h
  simp [names?, members?, hall]

@[simp] theorem names?_ofStrings (xs : List String) : names? (Json.ofStrings xs) = some (xs.map .str) := by
  refine names?_arr fun m hm => ?_
  obtain ⟨_, _, rfl⟩ := List.mem_map.mp hm
  rfl

@[simp] theorem readTokens_ofStrings (room : Nat) (xs : List String) :
    readTokens room (Json.ofStrings xs) = .ok xs := by
  simp only [readTokens, members?, Json.ofStrings]
  exact mapM_map_of_pure fun s _ => Json.display_str room s

theorem map_plainText_str (xs : List String) : (xs.map Json.str).map Json.plainText = xs := by
  rw [List.map_map]
  exact List.map_id xs

theorem readDocument_documentJson (room : Nat) (h : Covers fields d) :
    readDocument room (fields.map .str) d.id (documentJson d) = .ok d := by
  have hnames : names? (documentJson d) = some (d.fields.map fun f => .str f.1) := by
    simp [names?, documentJson, members?, Function.comp_def, isName]
  have hentries : readEntries room (d.fields.map fun f => (f.1, Json.ofStrings f.2)) = .ok d.fields :=
    mapM_map_of_pure fun _ _ => by simp [Except.map, pure, Except.pure]
  unfold readDocument
  rw [hnames]
  simp only [documentJson, hentries]
  exact if_pos h

/-- An index that is restored has the fields of the index whose snapshot it is. -/
theorem fields_ofSnapshot_snapshot {ix' : Index} (h : ofSnapshot room ix.snapshot = .ok ix') :
    ix'.fields = ix.fields := by
  have hversion : (ix.snapshot.get "schema_version").same (.int snapshotVersion) = true := by rfl
  rw [snapshot] at hversion
  rw [snapshot, ofSnapshot] at h
  simp only [hversion, if_true] at h
  obtain ⟨v, hv, h⟩ := bind_eq_ok.mp h
  cases hv
  simp only [names?_ofStrings] at h
  obtain ⟨fields, hfields, h⟩ := bind_eq_ok.mp h
  cases hfields
  obtain ⟨part, hpart, h⟩ := bind_eq_ok.mp h
  cases hpart
  obtain ⟨ds, _, h⟩ := bind_eq_ok.mp h
  cases h
  rw [fields_insertAll, map_plainText_str]

/-- **The snapshot of an index can be read, and gives back the fields and the documents.** -/
theorem ofSnapshot_snapshot (room : Nat) (h : ∀ d ∈ ix.documents, Covers ix.fields d) :
    ofSnapshot room ix.snapshot = .ok (ix.documents.foldl insert { fields := ix.fields }) := by
  have hversion : (ix.snapshot.get "schema_version").same (.int snapshotVersion) = true := by rfl
  have hfields : ∀ documents, snapshotPart "fields" [("schema_version", .int snapshotVersion),
      ("fields", Json.ofStrings ix.fields), ("documents", documents)] = .ok (Json.ofStrings ix.fields) := fun _ => rfl
  have hdocuments : ∀ documents, snapshotPart "documents" [("schema_version", .int snapshotVersion),
      ("fields", Json.ofStrings ix.fields), ("documents", documents)] = .ok documents := fun _ => rfl
  rw [snapshot] at hversion
  simp only [ofSnapshot, snapshot, hversion, if_true, hfields, hdocuments, names?_ofStrings, bind, Except.bind, pure,
    Except.pure]
  rw [mapM_map_of_pure fun d hd => readDocument_documentJson room (h d hd), map_plainText_str]
  rfl

end Shelfmark.Index
