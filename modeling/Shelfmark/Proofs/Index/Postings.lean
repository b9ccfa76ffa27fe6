import Shelfmark.Index.Basic

/-!
# Postings

Posting an id at some places adds it there and nowhere else (`mem_idsAt_postAll`), unposting it removes it there and
nowhere else (`mem_idsAt_unpostAll`).  Both keep the postings tidy (`Postings.Tidy`): no id stands twice at a place,
and no place is left without ids.
-/

namespace Shelfmark.Postings

variable {p : Postings} {id id' : String} {place place' : String × String}

/-- No id stands twice at a place, and every place that is kept has ids. -/
structure Tidy (p : Postings) : Prop where
  once : ∀ place : String × String, (p.idsAt place).Nodup
  inhabited : ∀ (place : String × String) (ids : List String), p[place]? = some ids → ids ≠ []

theorem tidy_empty : Tidy ∅ := ⟨fun _ => by simp [idsAt], fun _ _ h => by simp at h⟩

theorem idsAt_insert (p : Postings) (place place' : String × String) (ids : List String) :
    idsAt (p.insert place ids) place' = if place = place' then ids else p.idsAt place' := by
  simp only [idsAt, Std.HashMap.getElem?_insert, beq_iff_eq]
  split <;> rfl

theorem idsAt_erase (p : Postings) (place place' : String × String) :
    idsAt (p.erase place) place' = if place = place' then [] else p.idsAt place' := by
  simp only [idsAt, Std.HashMap.getElem?_erase, beq_iff_eq]
  split <;> rfl

theorem Tidy.insert (h : Tidy p) {ids : List String} (hn : ids.Nodup) (hne : ids ≠ []) :
    Tidy (p.insert place ids) := by
  refine ⟨fun place' => ?_, fun place' ids' hi => ?_⟩
  · rw [idsAt_insert]
    split
    · exact hn
    · exact h.once place'
  · rw [Std.HashMap.getElem?_insert] at hi
    split at hi
    · cases hi; exact hne
    · exact h.inhabited _ _ hi

theorem Tidy.erase (h : Tidy p) : Tidy (p.erase place) := by
  refine ⟨fun place' => ?_, fun place' ids hi => ?_⟩
  · rw [idsAt_erase]
    split
    · exact List.nodup_nil
    · exact h.once place'
  · rw [Std.HashMap.getElem?_erase] at hi
    split at hi
    · cases hi
    · exact h.inhabited _ _ hi

/-! ## One place -/

theorem post_of_mem (h : id ∈ p.idsAt place) : p.post id place = p := by simp [post, h]

theorem post_of_not_mem (h : id ∉ p.idsAt place) : p.post id place = p.insert place (id :: p.idsAt place) := by
  simp [post, h]

theorem mem_idsAt_post :
    id' ∈ (p.post id place).idsAt place' ↔ id' ∈ p.idsAt place' ∨ id' = id ∧ place' = place := by
  by_cases h : id ∈ p.idsAt place
  · rw [post_of_mem h]
    refine ⟨Or.inl, ?_⟩
    rintro (h' | ⟨rfl, rfl⟩)
    · exact h'
    · exact h
  · rw [post_of_not_mem h, idsAt_insert]
    split
    · rename_i he
      subst he
      simp only [List.mem_cons, and_true]
      exact or_comm
    · rename_i he
      simp [Ne.symm he]

theorem Tidy.post (h : Tidy p) (id : String) (place : String × String) : Tidy (p.post id place) := by
  by_cases hid : id ∈ p.idsAt place
  · rw [post_of_mem hid]; exact h
  · rw [post_of_not_mem hid]
    exact h.insert (List.nodup_cons.mpr ⟨hid, h.once place⟩) (List.cons_ne_nil _ _)

theorem unpost_of_none (h : p[place]? = none) : p.unpost id place = p := by simp [unpost, h]

theorem unpost_of_erase_nil {ids : List String} (h : p[place]? = some ids) (he : ids.erase id = []) :
    p.unpost id place = p.erase place := by
  simp [unpost, h, he]

theorem unpost_of_erase_ne_nil {ids : List String} (h : p[place]? = some ids) (he : ids.erase id ≠ []) :
    p.unpost id place = p.insert place (ids.erase id) := by
  simp [unpost, h, he]

/-- Unposting an id at a place erases it there, and the ids of other places stay. -/
theorem idsAt_unpost (p : Postings) (id : String) (place place' : String × String) :
    (p.unpost id place).idsAt place' = if place = place' then (p.idsAt place).erase id else p.idsAt place' := by
  cases hp : p[place]? with
  | none =>
    rw [unpost_of_none hp]
    split
    · rename_i he
      subst he
      simp [idsAt, hp]
    · rfl
  | some ids =>
    have hids : p.idsAt place = ids := by simp [idsAt, hp]
    by_cases he : ids.erase id = []
    · rw [unpost_of_erase_nil hp he, idsAt_erase, hids, he]
    · rw [unpost_of_erase_ne_nil hp he, idsAt_insert, hids]

theorem mem_idsAt_unpost (h : Tidy p) :
    id' ∈ (p.unpost id place).idsAt place' ↔ id' ∈ p.idsAt place' ∧ ¬(id' = id ∧ place' = place) := by
  rw [idsAt_unpost]
  split
  · rename_i he
    subst he
    rw [(h.once place).mem_erase_iff, and_comm]
    simp
  · rename_i he
    simp [Ne.symm he]

theorem Tidy.unpost (h : Tidy p) (id : String) (place : String × String) : Tidy (p.unpost id place) := by
  cases hp : p[place]? with
  | none => rw [unpost_of_none hp]; exact h
  | some ids =>
    by_cases he : ids.erase id = []
    · rw [unpost_of_erase_nil hp he]; exact h.erase
    · rw [unpost_of_erase_ne_nil hp he]
      have hn : ids.Nodup := by simpa [idsAt, hp] using h.once place
      exact h.insert (hn.erase id) he

/-! ## Several places -/

variable {places : List (String × String)}

theorem Tidy.postAll (h : Tidy p) (id : String) (places : List (String × String)) :
    Tidy (places.foldl (Postings.post id) p) := by
  induction places generalizing p with
  | nil => exact h
  | cons place rest ih => exact ih (h.post id place)

/-- **Posting an id at some places adds it there and nowhere else.** -/
theorem mem_idsAt_postAll : id' ∈ (places.foldl (post id) p).idsAt place' ↔
    id' ∈ p.idsAt place' ∨ id' = id ∧ place' ∈ places := by
  induction places generalizing p with
  | nil => simp
  | cons place rest ih =>
    rw [List.foldl_cons, ih, mem_idsAt_post, List.mem_cons, and_or_left, or_assoc]

theorem Tidy.unpostAll (h : Tidy p) (id : String) (places : List (String × String)) :
    Tidy (places.foldl (Postings.unpost id) p) := by
  induction places generalizing p with
  | nil => exact h
  | cons place rest ih => exact ih (h.unpost id place)

/-- **Unposting an id at some places removes it there and nowhere else.** -/
theorem mem_idsAt_unpostAll (h : Tidy p) : id' ∈ (places.foldl (unpost id) p).idsAt place' ↔
    id' ∈ p.idsAt place' ∧ ¬(id' = id ∧ place' ∈ places) := by
  induction places generalizing p with
  | nil => simp
  | cons place rest ih =>
    rw [List.foldl_cons, ih (h.unpost id place), mem_idsAt_unpost h, List.mem_cons, and_or_left, not_or, and_assoc]

end Shelfmark.Postings
