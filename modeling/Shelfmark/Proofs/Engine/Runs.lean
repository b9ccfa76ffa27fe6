import Shelfmark.Engine.Comparing

/-!
# Runs of tasks

How a task runs is how its parts run, one after the other (`run_bind`, `run_attempt`, `run_locked`); so what each part
keeps of the state, all of them together keep (`run_bind_keeps`).  A call of the store does what the operation does if
it is in order and the store is open (`run_store`), and else nothing (`run_store_not_ready`).
-/

namespace Shelfmark.Engine

variable {α β γ : Type} {w : State α}

namespace State

/-- The state with the lock held. -/
def lock (w : State α) : State α := { w with isLocked := true }

/-- The state with the lock free. -/
def unlock (w : State α) : State α := { w with isLocked := false }

@[simp] theorem lock_edition (w : State α) (i : Nat) : w.lock.edition i = w.edition i := rfl

end State

namespace Task

/-- The run of a task after another one that ended in some way. -/
def follow (r : Except Fault β × State α) (g : β → Task α γ) : Except Fault γ × State α :=
  match r with
  | (.ok b, w) => (g b).run w
  | (.error e, w) => (.error e, w)

@[simp] theorem follow_ok (b : β) (w : State α) (g : β → Task α γ) : follow (.ok b, w) g = (g b).run w := rfl

@[simp] theorem follow_error (e : Fault) (w : State α) (g : β → Task α γ) :
    follow (.error e, w) g = (.error e, w) := rfl

@[simp] theorem run_pure (b : β) (w : State α) : (pure b : Task α β).run w = (.ok b, w) := rfl

@[simp] theorem run_look (f : State α → β) (w : State α) : (look f).run w = (.ok (f w), w) := rfl

@[simp] theorem run_change (f : State α → State α) (w : State α) : (change f).run w = (.ok (), f w) := rfl

@[simp] theorem run_act (f : State α → β × State α) (w : State α) : (act f done).run w = (.ok (f w).1, (f w).2) := rfl

@[simp] theorem run_ofExcept (r : Except Fault β) (w : State α) : (ofExcept r).run w = (r, w) := by
  cases r <;> rfl

/-- A task with a continuation runs as the task and then as the continuation. -/
theorem run_bind' (t : Task α β) (g : β → Task α γ) (w : State α) : (t.bind g).run w = follow (t.run w) g := by
  induction t generalizing w with
  | done b => rfl
  | fail e => rfl
  | act f k ih => exact ih _ _
  | call f k ih => exact ih _ _
  | acquire k ih => exact ih _
  | release k ih => exact ih _

@[simp] theorem run_bind (t : Task α β) (g : β → Task α γ) (w : State α) : (t >>= g).run w = follow (t.run w) g :=
  run_bind' t g w

@[simp] theorem run_attempt (t : Task α β) (w : State α) : t.attempt.run w = (.ok (t.run w).1, (t.run w).2) := by
  induction t generalizing w with
  | done b => rfl
  | fail e => rfl
  | act f k ih => exact ih _ _
  | call f k ih => exact ih _ _
  | acquire k ih => exact ih _
  | release k ih => exact ih _

/-- A task under the lock takes the lock, runs and gives the lock back, whether it succeeds or fails. -/
@[simp] theorem run_locked (t : Task α β) (w : State α) :
    (locked t).run w = ((t.run w.lock).1, (t.run w.lock).2.unlock) := by
  show (t.attempt.bind fun r => release (ofExcept r)).run w.lock = _
  rw [run_bind', run_attempt]
  show (ofExcept _).run _ = _
  rw [run_ofExcept]
  rfl

end Task

/-- **What a task and the one after it keep of the state, both of them together keep.** -/
theorem run_bind_keeps {P : State α → Prop} {t : Task α β} {g : β → Task α γ} (h : P (t.run w).2)
    (hg : ∀ b w', P w' → P ((g b).run w').2) : P ((t >>= g).run w).2 := by
  rw [Task.run_bind]
  cases hr : t.run w with
  | mk r w' =>
    rw [hr] at h
    cases r with
    | ok b => exact hg b w' h
    | error e => exact h

/-- A task that succeeds did so after the first of its parts. -/
theorem exists_of_run_bind {t : Task α β} {g : β → Task α γ} {c : γ} {w'' : State α}
    (h : (t >>= g).run w = (.ok c, w'')) : ∃ b w', t.run w = (.ok b, w') ∧ (g b).run w' = (.ok c, w'') := by
  rw [Task.run_bind] at h
  cases hr : t.run w with
  | mk r w' =>
    rw [hr] at h
    cases r with
    | ok b => exact ⟨b, w', rfl, h⟩
    | error e => cases h

/-- Where time passes nothing changes but the clock. -/
theorem letPass_keeps {P : State α → Prop} (h : P w) (hnow : ∀ now, P { w with now }) (seconds : Number) :
    P ((letPass seconds).run w).2 := by
  simp only [letPass, Task.run_bind, Task.run_look, Task.follow_ok, Task.run_ofExcept]
  cases w.now.secondsAfter seconds with
  | error e => exact h
  | ok now => exact hnow now

/-- A task that gives another answer where it would fail. -/
theorem run_orElse (t : Task α β) (other : β) (w : State α) : (orElse t other).run w =
    (.ok (match (t.run w).1 with | .ok b => b | .error _ => other), (t.run w).2) := by
  simp only [orElse, Task.run_bind, Task.run_attempt, Task.follow_ok]
  cases (t.run w).1 <;> rfl

/-! ## Calls of the store -/

/-- An operation of the store is in order, and the store is open. -/
def State.Ready (w : State α) (op : StoreOperation) : Prop := w.faultOf op = none ∧ w.store.isOpen = true

theorem run_store {op : StoreOperation} (h : w.Ready op) (f : State α → Except Fault β × State α) :
    (Task.store op f).run w = f w := by
  show (Task.ofExcept _).run _ = _
  simp only [h.1, h.2, if_true, Task.run_ofExcept]

/-- A call that is not ready fails in one way, whatever it would do. -/
theorem run_store_not_ready {op : StoreOperation} (h : ¬w.Ready op) : ∃ e, e.isRefusal = false ∧
    ∀ {β : Type} (f : State α → Except Fault β × State α), (Task.store op f).run w = (.error e, w) := by
  cases hf : w.faultOf op with
  | some message =>
    refine ⟨.storeDown message, rfl, fun f => ?_⟩
    show (Task.ofExcept _).run _ = _
    simp only [hf, Task.run_ofExcept]
  | none =>
    have ho : w.store.isOpen = false := by simpa [State.Ready, hf] using h
    refine ⟨.storeClosed, rfl, fun f => ?_⟩
    show (Task.ofExcept _).run _ = _
    simp only [hf, ho, Bool.false_eq_true, if_false, Task.run_ofExcept]

end Shelfmark.Engine
