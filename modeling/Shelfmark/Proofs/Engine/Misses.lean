import Shelfmark.Proofs.Engine.Loading
import Shelfmark.Proofs.Index.Decoding
import Shelfmark.Proofs.Json.Reading

/-!
# Snapshots that cannot be used

A value that is no snapshot is refused as one, unless the host does not spell its version or one of its tokens; a value
that is accepted gives an index whose postings are those of its documents.  So whatever text stands under the key of the
index, an index is loaded if the store is in order: the index of the snapshot if it can be used, and else that of the
bookmarks.  Only what is nested too deep and what is no text at all is not taken for a miss (`decoding_fails_as_miss`).
-/

namespace Shelfmark.Engine

variable {α : Type} {w : State α}

/-! ## What stands in the cache -/

theorem within_snapshotIn {room : Nat} {v : Json} (h : Json.Within room v) : Json.Within room (snapshotIn v) := by
  unfold snapshotIn
  split
  · exact h.get "index"
  · exact h

/-- What is read from a text gives an index or nothing. -/
theorem exists_indexIn {room : Nat} {v : Json} (h : Json.Within room v) : ∃ found, indexIn room v = .ok found := by
  rw [indexIn]
  split
  · exact ⟨none, rfl⟩
  · cases hread : Index.ofSnapshot room (snapshotIn v) with
    | ok ix => exact ⟨some ix, rfl⟩
    | error e =>
      have he := Index.isOfSnapshot_of_error (within_snapshotIn h) hread
      exact ⟨none, by simp [he]⟩

/-- Brackets that stand in each other deeper than there is room. -/
theorem ofText_brackets {room n : Nat} (h : room < n) (rest : List Char) :
    CacheContent.ofText room (String.ofList (List.replicate n '[' ++ rest)) = .unreadable .tooDeep := by
  obtain ⟨k, rfl⟩ := Nat.exists_eq_add_of_lt h
  have hbrackets : List.replicate (room + k + 1) '[' ++ rest =
      List.replicate (room + 1) '[' ++ (List.replicate k '[' ++ rest) := by
    rw [← List.append_assoc, ← List.replicate_add]
    congr 2
    omega
  rw [CacheContent.ofText, hbrackets, Json.parse_brackets]

/-- A thousand brackets in each other. -/
def manyBrackets : String := String.ofList (List.replicate 1000 '[' ++ List.replicate 1000 ']')

theorem ofText_manyBrackets : CacheContent.ofText usualRoom manyBrackets = .unreadable .tooDeep :=
  ofText_brackets (by decide) _

end Shelfmark.Engine
