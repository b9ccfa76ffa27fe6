import Shelfmark.Json.Basic

/-!
# Names in objects

A value is proper if none of its objects names a key twice.  Setting a field of an object keeps it so
(`Proper.setField`), since the last value for a key takes the place of the first.
-/

namespace Shelfmark.Json

variable {v : Json}

/-- No object in the value names a key twice. -/
inductive Proper : Json → Prop
  | null : Proper .null
  | bool (b : Bool) : Proper (.bool b)
  | int (n : Int) : Proper (.int n)
  | float (x : Float) : Proper (.float x)
  | str (s : String) : Proper (.str s)
  | arr {items : List Json} (h : ∀ v ∈ items, Proper v) : Proper (.arr items)
  | obj {fields : List (String × Json)} (hn : (fields.map Prod.fst).Nodup) (h : ∀ f ∈ fields, Proper f.2) :
      Proper (.obj fields)

theorem Proper.fields {fields : List (String × Json)} (h : Proper (.obj fields)) :
    (fields.map Prod.fst).Nodup ∧ ∀ f ∈ fields, Proper f.2 := by
  cases h with
  | obj hn h => exact ⟨hn, h⟩

theorem mem_of_lookup {key : String} {w : Json} : ∀ {fields : List (String × Json)}, lookup key fields = some w →
    (key, w) ∈ fields
  | (k, u) :: rest, h => by
    unfold lookup at h
    split at h
    · rename_i hk
      cases h
      exact beq_iff_eq.mp hk ▸ List.mem_cons_self
    · exact List.mem_cons_of_mem _ (mem_of_lookup h)

/-- The fields of a proper value are proper. -/
theorem Proper.get (h : Proper v) (key : String) : Proper (v.get key) := by
  rw [Json.get]
  cases hfield : v.get? key with
  | none => exact .null
  | some w =>
    cases v with
    | obj fields => exact h.fields.2 _ (mem_of_lookup hfield)
    | null | bool | int | float | str | arr => cases hfield

/-- Setting a field keeps the names different. -/
theorem names_setField (key : String) (v : Json) : ∀ fields : List (String × Json),
    (setField key v fields).map Prod.fst = if key ∈ fields.map Prod.fst then fields.map Prod.fst
      else fields.map Prod.fst ++ [key]
  | [] => rfl
  | (k, w) :: fields => by
    unfold setField
    by_cases hk : k = key
    · simp [hk]
    · have hne : key ≠ k := Ne.symm hk
      simp only [beq_iff_eq, hk, if_false, List.map_cons, names_setField key v fields, List.mem_cons, hne, false_or]
      split <;> rfl

theorem nodup_setField {key : String} {fields : List (String × Json)} (h : (fields.map Prod.fst).Nodup) :
    ((setField key v fields).map Prod.fst).Nodup := by
  rw [names_setField]
  split
  · exact h
  · rename_i hkey
    refine List.nodup_append.mpr ⟨h, List.pairwise_singleton _ _, fun k hk k' hk' he => hkey ?_⟩
    rwa [← List.mem_singleton.mp hk', ← he]

theorem mem_setField {key : String} {f : String × Json} : ∀ {fields : List (String × Json)},
    f ∈ setField key v fields → f.2 = v ∨ f ∈ fields
  | [], h => .inl (by rw [List.mem_singleton.mp h])
  | (k, w) :: fields, h => by
    unfold setField at h
    split at h
    · exact (List.mem_cons.mp h).imp (fun he => by rw [he]) (List.mem_cons_of_mem _)
    · rcases List.mem_cons.mp h with rfl | h
      · exact .inr List.mem_cons_self
      · exact (mem_setField h).imp_right (List.mem_cons_of_mem _)

/-- A field that is set keeps an object proper. -/
theorem Proper.setField {fields : List (String × Json)} (hf : Proper (.obj fields)) (key : String) (hv : Proper v) :
    Proper (.obj (Json.setField key v fields)) := by
  obtain ⟨hn, h⟩ := hf.fields
  refine .obj (nodup_setField hn) fun f hmem => ?_
  rcases mem_setField hmem with he | hmem
  · exact he ▸ hv
  · exact h f hmem

end Shelfmark.Json
