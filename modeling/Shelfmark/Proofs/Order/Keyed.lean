import Mathlib.Data.List.Nodup

/-!
# Members and their keys

Where the keys of a list are distinct, a member is the one that is found under its key (`find?_key_eq_some_iff`), and
the others are those with other keys (`mem_filter_key_ne`).  So a member may be put in front of the others
(`perm_cons_filter_key_ne`).
-/

namespace Shelfmark

section Keys

variable {β : Type} {key : β → String} {xs : List β} {x y : β} {k : String}

/-- **A member is found under its key.** -/
theorem find?_key_eq_some_iff (hkeys : (xs.map key).Nodup) :
    (xs.find? fun y => key y == k) = some x ↔ x ∈ xs ∧ key x = k := by
  constructor
  · exact fun h => ⟨List.mem_of_find?_eq_some h, by simpa using List.find?_some h⟩
  · rintro ⟨hx, rfl⟩
    cases hfound : xs.find? fun y => key y == key x with
    | none => exact absurd (List.find?_eq_none.mp hfound x hx) (by simp)
    | some y =>
      have hkey : key y = key x := by simpa using List.find?_some hfound
      rw [List.inj_on_of_nodup_map hkeys (List.mem_of_find?_eq_some hfound) hx hkey]

/-- The members with other keys are the others. -/
theorem mem_filter_key_ne (hkeys : (xs.map key).Nodup) (hx : x ∈ xs) :
    (y ∈ xs.filter fun y => key y != key x) ↔ y ∈ xs ∧ y ≠ x := by
  rw [List.mem_filter, bne_iff_ne]
  exact and_congr_right fun hy =>
    not_congr ⟨fun hkey => List.inj_on_of_nodup_map hkeys hy hx hkey, fun he => he ▸ rfl⟩

/-- **A member and the others are the members in another order.** -/
theorem perm_cons_filter_key_ne (hkeys : (xs.map key).Nodup) (hx : x ∈ xs) :
    (x :: xs.filter fun y => key y != key x).Perm xs := by
  have hnodup : (x :: xs.filter fun y => key y != key x).Nodup :=
    List.nodup_cons.mpr ⟨by simp, hkeys.of_map.filter _⟩
  refine (List.perm_ext_iff_of_nodup hnodup hkeys.of_map).mpr fun y => ?_
  rw [List.mem_cons, mem_filter_key_ne hkeys hx]
  constructor
  · rintro (rfl | ⟨hy, _⟩)
    · exact hx
    · exact hy
  · intro hy
    by_cases he : y = x
    · exact Or.inl he
    · exact Or.inr ⟨hy, he⟩

end Keys

/-- The value of a key in a list that pairs keys with their values. -/
theorem find?_map_key {γ : Type} (f : String → γ) (k : String) (keys : List String) :
    ((keys.map fun l => (l, f l)).find? fun p => p.1 == k).map Prod.snd = if k ∈ keys then some (f k) else none := by
  induction keys with
  | nil => rfl
  | cons l rest ih =>
    by_cases hl : l = k
    · simp [hl]
    · have hl' : ¬k = l := fun h => hl h.symm
      simpa [hl, hl'] using ih

end Shelfmark
