import Mathlib.Data.List.Induction

/-!
# Histories

What an event of a history brings about lasts until an event ends it (`Lasts`).  A new event brings it about, or leaves
it as it was unless it ends it (`lasts_snoc`).  An event of a history in two parts is in one of them (`mem_of_parts`).
-/

namespace Shelfmark

variable {ε : Type} {begins ends : ε → Prop} {x : ε} {xs : List ε}

/-- One of the events begins something, and no later one ends it. -/
def Lasts (begins ends : ε → Prop) (xs : List ε) : Prop :=
  ∃ before x later, xs = before ++ x :: later ∧ begins x ∧ ∀ y ∈ later, ¬ends y

theorem not_lasts_nil : ¬Lasts begins ends [] := by
  rintro ⟨before, x, later, he, _⟩
  simp at he

/-- **The last event begins it, or it lasted before and the last event does not end it.** -/
theorem lasts_snoc : Lasts begins ends (xs ++ [x]) ↔ begins x ∨ Lasts begins ends xs ∧ ¬ends x := by
  constructor
  · rintro ⟨before, y, later, he, hy, hl⟩
    rcases List.eq_nil_or_concat later with rfl | ⟨later, z, rfl⟩
    · obtain ⟨rfl, hx⟩ := List.append_inj' he rfl
      cases hx
      exact .inl hy
    · rw [List.concat_eq_append, ← List.cons_append, ← List.append_assoc] at he
      obtain ⟨rfl, hx⟩ := List.append_inj' he rfl
      cases hx
      exact .inr ⟨⟨before, y, later, rfl, hy, fun z hz => hl z (by simp [hz])⟩, hl x (by simp)⟩
  · rintro (hx | ⟨⟨before, y, later, rfl, hy, hl⟩, hx⟩)
    · exact ⟨xs, x, [], rfl, hx, by simp⟩
    · refine ⟨before, y, later ++ [x], by simp, hy, fun z hz => ?_⟩
      rcases List.mem_append.mp hz with hz | hz
      · exact hl z hz
      · rwa [List.mem_singleton.mp hz]

/-- An event of a history in two parts is in the first one and comes before the second one, or what is later than it
is in the second one like itself. -/
theorem mem_of_parts {us vs l l' : List ε} (h : us ++ vs = l ++ x :: l') : x ∈ us ∧ vs ⊆ l' ∨ x ∈ vs ∧ l' ⊆ vs := by
  rcases List.append_eq_append_iff.mp h with ⟨m, rfl, hvs⟩ | ⟨m, rfl, hm⟩
  · rw [hvs]
    exact .inr ⟨by simp, fun y hy => by simp [hy]⟩
  · cases m with
    | nil =>
      rw [List.nil_append] at hm
      rw [← hm]
      exact .inr ⟨by simp, fun y hy => by simp [hy]⟩
    | cons y m =>
      obtain ⟨rfl, rfl⟩ := List.cons.inj hm
      exact .inl ⟨by simp, fun y hy => by simp [hy]⟩

end Shelfmark
