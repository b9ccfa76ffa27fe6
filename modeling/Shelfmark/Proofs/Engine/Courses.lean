import Shelfmark.Proofs.Engine.Amid
import Shelfmark.Proofs.Engine.Turns

/-!
# Courses

Several tasks run in turns, in any order, while operations of the store go out of order and come back (`Course`).  The
turns are recorded: whose turn it was, which operation of the store was called, and the states before and after it.

- What a task is about to call is told from what goes out of order with it (`Task.calls`, `calls_calling`);
- what holds at first and is kept by every turn, holds all along (`Course.run_induction`).
-/

namespace Shelfmark.Engine

variable {α β γ : Type}

/-! ## Calls of the store -/

namespace Task

/-- What a call of the store comes to. -/
def calling (op : StoreOperation) (f : State α → Except Fault β × State α) (w : State α) :
    Except Fault β × State α :=
  match w.faultOf op with
  | some message => (.error (.storeDown message), w)
  | none => if w.store.isOpen then f w else (.error .storeClosed, w)

/-- The store is closed, and one operation is out of order: only a call of this one says so. -/
def probing (op : StoreOperation) : State α :=
  { (default : State α) with store := { isOpen := false }, faults := [(op, "")] }

/-- The task stands before a call of an operation of the store. -/
def calls (t : Task α β) (op : StoreOperation) : Bool :=
  match t with
  | call f _ =>
    match (f (probing op)).1 with
    | .error (.storeDown _) => true
    | _ => false
  | _ => false

theorem calling_of_ready {op : StoreOperation} {w : State α} (h : w.Ready op)
    (f : State α → Except Fault β × State α) : calling op f w = f w := by
  simp only [calling, h.1, h.2, if_true]

/-- A call that is not ready fails, and changes nothing. -/
theorem calling_not_ready {op : StoreOperation} {w : State α} (h : ¬w.Ready op)
    (f : State α → Except Fault β × State α) : ∃ e, calling op f w = (.error e, w) := by
  obtain ⟨e, _, hrun⟩ := run_store_not_ready h
  refine ⟨e, ?_⟩
  rw [← hrun f]
  exact (run_ofExcept (calling op f w).1 _).symm

/-- **A call of the store is told from what goes out of order with it.** -/
theorem calls_calling (op op' : StoreOperation) (f : State α → Except Fault γ × State α)
    (k : Except Fault γ → Task α β) : (call (calling op f) k).calls op' = (op == op') := by
  by_cases h : op = op'
  · subst h
    simp [calls, calling, probing, State.faultOf]
  · simp [calls, calling, probing, State.faultOf, h, Ne.symm h]

theorem calls_calling_self (op : StoreOperation) (f : State α → Except Fault γ × State α)
    (k : Except Fault γ → Task α β) : (call (calling op f) k).calls op = true :=
  (calls_calling op op f k).trans (beq_self_eq_true op)

theorem calls_calling_of_ne {op op' : StoreOperation} (h : op ≠ op') (f : State α → Except Fault γ × State α)
    (k : Except Fault γ → Task α β) : (call (calling op f) k).calls op' = false :=
  (calls_calling op op' f k).trans (beq_false_of_ne h)

end Task

/-! ## Courses -/

/-- A turn of a task: its number, what it calls, and the states before and after the turn. -/
structure Turn (α : Type) where
  task : Nat
  calls : StoreOperation → Bool
  before : State α
  after : State α

/-- Tasks that run in turns, and the turns that they have had. -/
structure Course (α β : Type) where
  tasks : List (Task α β)
  state : State α
  turns : List (Turn α) := []

namespace Course

/-- The outages do not change. -/
def calm : Weather := fun _ => none

/-- How often an operation of the store was called. -/
def count (c : Course α β) (op : StoreOperation) : Nat := c.turns.countP (·.calls op)

/-- Every task has ended. -/
def HasEnded (c : Course α β) : Prop := ∀ t ∈ c.tasks, t.result?.isSome = true

instance (c : Course α β) : Decidable c.HasEnded :=
  inferInstanceAs (Decidable (∀ t ∈ c.tasks, t.result?.isSome = true))

/-- The state at the next turn. -/
def upcoming (fs : Weather) (c : Course α β) : State α := c.state.under (fs c.turns.length)

/-- Lets the task with a number have a turn, which does not happen if it has ended or must wait. -/
def next (fs : Weather) (c : Course α β) (k : Nat) : Course α β :=
  match c.tasks[k]? with
  | none => c
  | some t =>
    match t.turn (c.upcoming fs) with
    | none => c
    | some (t', w') => ⟨c.tasks.set k t', w', c.turns ++ [⟨k, t.calls, c.upcoming fs, w'⟩]⟩

/-- Lets tasks have turns, one after the other. -/
def run (fs : Weather) (ks : List Nat) (c : Course α β) : Course α β := ks.foldl (next fs) c

variable {fs : Weather} {c : Course α β} {k : Nat} {t t' : Task α β} {w' : State α}

theorem count_snoc (c : Course α β) (ts : List (Task α β)) (x : Turn α) (op : StoreOperation) :
    count ⟨ts, w', c.turns ++ [x]⟩ op = c.count op + (x.calls op).toNat := by
  rw [count, List.countP_append, List.countP_singleton]
  cases x.calls op <;> rfl

theorem next_of_turn (ht : c.tasks[k]? = some t) (hturn : t.turn (c.upcoming fs) = some (t', w')) :
    c.next fs k = ⟨c.tasks.set k t', w', c.turns ++ [⟨k, t.calls, c.upcoming fs, w'⟩]⟩ := by
  simp only [next, ht, hturn]

theorem next_cases (fs : Weather) (c : Course α β) (k : Nat) : c.next fs k = c ∨ ∃ t t' w',
    c.tasks[k]? = some t ∧ t.turn (c.upcoming fs) = some (t', w') ∧
      c.next fs k = ⟨c.tasks.set k t', w', c.turns ++ [⟨k, t.calls, c.upcoming fs, w'⟩]⟩ := by
  cases ht : c.tasks[k]? with
  | none => exact .inl (by simp only [next, ht])
  | some t =>
    cases hturn : t.turn (c.upcoming fs) with
    | none => exact .inl (by simp only [next, ht, hturn])
    | some r => exact .inr ⟨t, r.1, r.2, rfl, hturn, next_of_turn ht hturn⟩

/-- **What holds at first and is kept by every turn, holds all along.** -/
theorem run_induction {P : Course α β → Prop} (h : P c)
    (hstep : ∀ (c : Course α β) k t t' w', P c → c.tasks[k]? = some t → t.turn (c.upcoming fs) = some (t', w') →
      P ⟨c.tasks.set k t', w', c.turns ++ [⟨k, t.calls, c.upcoming fs, w'⟩]⟩) (ks : List Nat) : P (c.run fs ks) := by
  induction ks generalizing c with
  | nil => exact h
  | cons k ks ih =>
    refine ih ?_
    rcases next_cases fs c k with hnext | ⟨t, t', w', ht, hturn, hnext⟩
    · rwa [hnext]
    · rw [hnext]
      exact hstep c k t t' w' h ht hturn

end Course

end Shelfmark.Engine
