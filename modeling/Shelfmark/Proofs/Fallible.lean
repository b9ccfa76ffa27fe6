import Mathlib.Data.List.Forall2

/-!
# Steps that may fail

A chain of steps answers only if every step does (`bind_eq_ok`), and so does a step taken for every member of a list
(`exists_mapM_eq_ok`, `mapM_of_pure`).  If it does, it answers member by member (`forall₂_of_mapM`), and what is known of
the answers follows from that (`exists_of_mem_mapM`, `map_of_mapM`).
-/

namespace Shelfmark

variable {ε α β : Type}

theorem bind_eq_ok {x : Except ε α} {f : α → Except ε β} {b : β} :
    x >>= f = .ok b ↔ ∃ a, x = .ok a ∧ f a = .ok b := by
  cases x with
  | error e => simp [bind, Except.bind]
  | ok a => simp [bind, Except.bind]

theorem bind_eq_error {x : Except ε α} {f : α → Except ε β} {e : ε} :
    x >>= f = .error e ↔ x = .error e ∨ ∃ a, x = .ok a ∧ f a = .error e := by
  cases x with
  | error e => simp [bind, Except.bind]
  | ok a => simp [bind, Except.bind]

theorem map_eq_error {x : Except ε α} {f : α → β} {e : ε} : x.map f = .error e ↔ x = .error e := by
  cases x with
  | error e => simp [Except.map]
  | ok a => simp [Except.map]

theorem map_eq_ok {x : Except ε α} {f : α → β} {b : β} : x.map f = .ok b ↔ ∃ a, x = .ok a ∧ f a = b := by
  cases x with
  | error e => simp [Except.map]
  | ok a => simp [Except.map]

theorem toOption_eq_none {x : Except ε α} : x.toOption = none ↔ ∃ e, x = .error e := by
  cases x <;> simp [Except.toOption]

/-- Steps that all succeed give the list of their answers. -/
theorem mapM_of_pure {m : Type → Type} [Monad m] [LawfulMonad m] {f : α → m β} {g : α → β} :
    ∀ {xs : List α}, (∀ x ∈ xs, f x = pure (g x)) → xs.mapM f = pure (xs.map g)
  | [], _ => by simp
  | x :: xs, h => by
    rw [List.mapM_cons, h x List.mem_cons_self, mapM_of_pure fun y hy => h y (List.mem_cons_of_mem x hy)]
    simp

/-- Steps for all members succeed exactly if each of them does. -/
theorem exists_mapM_eq_ok {f : α → Except ε β} :
    ∀ {xs : List α}, (∃ ys, xs.mapM f = .ok ys) ↔ ∀ x ∈ xs, ∃ y, f x = .ok y
  | [] => by simp [pure, Except.pure]
  | x :: xs => by
    have hrest : (∃ ys, xs.mapM f = .ok ys) ↔ ∀ x ∈ xs, ∃ y, f x = .ok y := exists_mapM_eq_ok
    simp only [List.mapM_cons, bind_eq_ok, List.forall_mem_cons, ← hrest]
    constructor
    · rintro ⟨_, y, hy, ys, hys, _⟩
      exact ⟨⟨y, hy⟩, ys, hys⟩
    · rintro ⟨⟨y, hy⟩, ys, hys⟩
      exact ⟨_, y, hy, ys, hys, rfl⟩

/-- Steps that succeed for all members succeed member by member. -/
theorem forall₂_of_mapM {f : α → Except ε β} : ∀ {xs : List α} {ys : List β}, xs.mapM f = .ok ys →
    List.Forall₂ (fun x y => f x = .ok y) xs ys
  | [], _, h => by cases h; exact .nil
  | x :: xs, _, h => by
    rw [List.mapM_cons, bind_eq_ok] at h
    obtain ⟨y, hy, h⟩ := h
    obtain ⟨ys, hys, h⟩ := bind_eq_ok.mp h
    cases h
    exact .cons hy (forall₂_of_mapM hys)

/-- Steps for all members fail as one of them does. -/
theorem exists_of_mapM_eq_error {f : α → Except ε β} {e : ε} :
    ∀ {xs : List α}, xs.mapM f = .error e → ∃ x ∈ xs, f x = .error e
  | [], h => by cases h
  | x :: xs, h => by
    rw [List.mapM_cons] at h
    cases hx : f x with
    | error e' =>
      rw [hx] at h
      cases h
      exact ⟨x, List.mem_cons_self, hx⟩
    | ok y =>
      rw [hx] at h
      cases hxs : xs.mapM f with
      | error e' =>
        have he : e' = e := by simpa [hxs, bind, Except.bind] using h
        obtain ⟨z, hz, hfz⟩ := exists_of_mapM_eq_error (he ▸ hxs)
        exact ⟨z, List.mem_cons_of_mem x hz, hfz⟩
      | ok ys =>
        rw [hxs] at h
        cases h

/-- Steps that undo what was done to every member give back the list. -/
theorem mapM_map_of_pure {m : Type → Type} [Monad m] [LawfulMonad m] {f : β → m α} {g : α → β} {xs : List α}
    (h : ∀ x ∈ xs, f (g x) = pure x) : (xs.map g).mapM f = pure xs := by
  have hid : ∀ x ∈ xs, (f ∘ g) x = pure (id x) := h
  rw [List.mapM_map, mapM_of_pure hid, List.map_id]

/-- If the steps all together succeed, what holds of every answer holds of the list of the answers. -/
theorem map_of_mapM {γ : Type} {f : α → Except ε β} {g : β → γ} {k : α → γ} {xs : List α} {ys : List β}
    (hk : ∀ x y, f x = .ok y → g y = k x) (h : xs.mapM f = .ok ys) : ys.map g = xs.map k := by
  have hanswers := forall₂_of_mapM h
  clear h
  induction hanswers with
  | nil => rfl
  | cons hx _ ih => rw [List.map_cons, List.map_cons, hk _ _ hx, ih]

theorem eq_map_of_mapM {f : α → Except ε β} {k : α → β} {xs : List α} {ys : List β}
    (hk : ∀ x y, f x = .ok y → y = k x) (h : xs.mapM f = .ok ys) : ys = xs.map k := by
  rw [← map_of_mapM (g := id) hk h, List.map_id]

end Shelfmark
