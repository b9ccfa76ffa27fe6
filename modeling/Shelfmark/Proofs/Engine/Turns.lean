import Shelfmark.Proofs.Engine.Runs

/-!
# Tasks in turns

A task that has its turn passes the call of the store or the taking of the lock that it stands before, and goes on to
the next one (`Task.turn`).  Several tasks run in turns, in any order (`Interleaved`).

- Every schedule is such a run (`interleaved_interleave`);
- a task that takes the lock only for stretches without another taking can have all turns to itself, and then it does
  what it does when it is run alone (`Interleaved.alone`).
-/

namespace Shelfmark.Engine

variable {α β γ : Type}

namespace Task

/-- Runs a task up to its next call of the store or its next taking of the lock, or to its end. -/
def settle : Task α β → State α → Task α β × State α
  | done b, w => (done b, w)
  | fail e, w => (fail e, w)
  | act f k, w =>
    let (c, w) := f w
    (k c).settle w
  | call f k, w => (call f k, w)
  | acquire k, w => (acquire k, w)
  | release k, w => k.settle w.unlock

/-- Lets a task have a turn, if it has not ended and need not wait for the lock. -/
def turn : Task α β → State α → Option (Task α β × State α)
  | done _, _ => none
  | fail _, _ => none
  | act f k, w => some ((act f k).settle w)
  | call f k, w =>
    let (c, w) := f w
    some ((k c).settle w)
  | acquire k, w => if w.isLocked then none else some (k.settle w.lock)
  | release k, w => some ((release k).settle w)

/-- The task stands before a taking of the lock. -/
def isAtLock : Task α β → Bool
  | acquire _ => true
  | _ => false

theorem run_settle (t : Task α β) (w : State α) : (t.settle w).1.run (t.settle w).2 = t.run w := by
  induction t generalizing w with
  | done b => rfl
  | fail e => rfl
  | act f k ih => exact ih _ _
  | call f k ih => rfl
  | acquire k ih => rfl
  | release k ih => exact ih _

/-! ## Parts of tasks -/

theorem bind_assoc {δ : Type} (t : Task α β) (f : β → Task α γ) (g : γ → Task α δ) :
    (t.bind f).bind g = t.bind fun b => (f b).bind g := by
  induction t with
  | done b => rfl
  | fail e => rfl
  | act f' k ih => exact congrArg (act f') (funext ih)
  | call f' k ih => exact congrArg (call f') (funext ih)
  | acquire k ih => exact congrArg acquire ih
  | release k ih => exact congrArg release ih

theorem bind_done (t : Task α β) : t.bind done = t := by
  induction t with
  | done b => rfl
  | fail e => rfl
  | act f k ih => exact congrArg (act f) (funext ih)
  | call f k ih => exact congrArg (call f) (funext ih)
  | acquire k ih => exact congrArg acquire ih
  | release k ih => exact congrArg release ih

/-- The task leaves the lock alone. -/
inductive Lockless : Task α β → Prop
  | done (b : β) : Lockless (done b)
  | fail (e : Fault) : Lockless (fail e)
  | act {δ : Type} {f : State α → δ × State α} {k : δ → Task α β} (hf : ∀ w, (f w).2.isLocked = w.isLocked)
      (h : ∀ c, Lockless (k c)) : Lockless (act f k)
  | call {δ : Type} {f : State α → Except Fault δ × State α} {k : Except Fault δ → Task α β}
      (hf : ∀ w, (f w).2.isLocked = w.isLocked) (h : ∀ c, Lockless (k c)) : Lockless (call f k)

namespace Lockless

theorem bind {t : Task α β} (h : Lockless t) {g : β → Task α γ} (hg : ∀ b, Lockless (g b)) : Lockless (t.bind g) := by
  induction h with
  | done b => exact hg b
  | fail e => exact .fail e
  | act hf _ ih => exact .act hf ih
  | call hf _ ih => exact .call hf ih

theorem attempt {t : Task α β} (h : Lockless t) : Lockless t.attempt := by
  induction h with
  | done b => exact .done _
  | fail e => exact .done _
  | act hf _ ih => exact .act hf ih
  | call hf _ ih => exact .call hf ih

theorem ofExcept (r : Except Fault β) : Lockless (ofExcept r : Task α β) := by
  cases r
  · exact .fail _
  · exact .done _

theorem look (f : State α → β) : Lockless (look f) := .act (fun _ => rfl) .done

theorem store (op : StoreOperation) {f : State α → Except Fault β × State α}
    (hf : ∀ w, (f w).2.isLocked = w.isLocked) : Lockless (store op f) := by
  refine .call (fun w => ?_) .ofExcept
  split
  · rfl
  · split
    · exact hf w
    · rfl

end Lockless

/-- The task takes the lock for stretches in which it leaves it alone. -/
inductive Orderly : Task α β → Prop
  | lockless {t : Task α β} (h : Lockless t) : Orderly t
  | act {δ : Type} {f : State α → δ × State α} {k : δ → Task α β} (hf : ∀ w, (f w).2.isLocked = w.isLocked)
      (h : ∀ c, Orderly (k c)) : Orderly (act f k)
  | call {δ : Type} {f : State α → Except Fault δ × State α} {k : Except Fault δ → Task α β}
      (hf : ∀ w, (f w).2.isLocked = w.isLocked) (h : ∀ c, Orderly (k c)) : Orderly (call f k)
  | locked {δ : Type} {t : Task α δ} {g : δ → Task α β} (ht : Lockless t) (hg : ∀ c, Orderly (g c)) :
      Orderly ((locked t).bind g)

namespace Orderly

theorem bind {t : Task α β} (h : Orderly t) {g : β → Task α γ} (hg : ∀ b, Orderly (g b)) : Orderly (t.bind g) := by
  induction h with
  | lockless h =>
    induction h with
    | done b => exact hg b
    | fail e => exact .lockless (.fail e)
    | act hf _ ih => exact .act hf ih
    | call hf _ ih => exact .call hf ih
  | act hf _ ih => exact .act hf ih
  | call hf _ ih => exact .call hf ih
  | locked ht _ ih =>
    rw [bind_assoc]
    exact .locked ht ih

/-- The task gives the lock back. -/
theorem isLocked_run {t : Task α β} (h : Orderly t) {w : State α} (hl : w.isLocked = false) :
    (t.run w).2.isLocked = false := by
  induction h generalizing w with
  | lockless h =>
    induction h generalizing w with
    | done b => exact hl
    | fail e => exact hl
    | act hf _ ih => exact ih _ ((hf w).trans hl)
    | call hf _ ih => exact ih _ ((hf w).trans hl)
  | act hf _ ih => exact ih _ ((hf w).trans hl)
  | call hf _ ih => exact ih _ ((hf w).trans hl)
  | @locked δ t g _ _ ih =>
    rw [run_bind', run_locked]
    cases (t.run w.lock).1 with
    | error e => rfl
    | ok c => exact ih c rfl

theorem underLock {t : Task α β} (h : Lockless t) : Orderly (Task.locked t) := by
  rw [← bind_done (Task.locked t)]
  exact .locked h fun b => .lockless (.done b)

end Orderly

end Task

/-! ## Runs in turns -/

/-- Tasks that run in turns, at some moment. -/
structure Moment (α β : Type) where
  tasks : List (Task α β)
  state : State α
  /-- The numbers of the tasks that took the lock. -/
  entered : List Nat := []

/-- Tasks run in turns, in any order; a task may have its turn if it is allowed to. -/
inductive Interleaved (allowed : Moment α β → Nat → Prop) (m : Moment α β) : Moment α β → Prop
  | start : Interleaved allowed m m
  | turn {n : Moment α β} {k : Nat} {t t' : Task α β} {v : State α} (h : Interleaved allowed m n) (ha : allowed n k)
      (ht : n.tasks[k]? = some t) (hturn : t.turn n.state = some (t', v)) :
      Interleaved allowed m ⟨n.tasks.set k t', v, if t.isAtLock then n.entered ++ [k] else n.entered⟩

/-- Every task may have its turn at any time. -/
def Freely (_ : Moment α β) (_ : Nat) : Prop := True

namespace Interleaved

variable {allowed : Moment α β → Nat → Prop} {m n n' : Moment α β} {ts : List (Task α β)} {v v' : State α} {k : Nat}
  {t t' : Task α β} {es : List Nat}

/-- The turn of a task that does not stand before the lock. -/
theorem next (hk : k < ts.length) (h : Interleaved allowed m ⟨ts.set k t, v, es⟩)
    (ha : allowed ⟨ts.set k t, v, es⟩ k) (hl : t.isAtLock = false) (hturn : t.turn v = some (t', v')) :
    Interleaved allowed m ⟨ts.set k t', v', es⟩ := by
  have hset := h.turn ha (List.getElem?_set_self hk) hturn
  simpa only [List.set_set, hl, Bool.false_eq_true, if_false] using hset

/-- The turn of a task that takes the lock. -/
theorem enter (hk : k < ts.length) (h : Interleaved allowed m ⟨ts.set k (.acquire t), v, es⟩)
    (ha : allowed ⟨ts.set k (.acquire t), v, es⟩ k) (hl : v.isLocked = false) :
    Interleaved allowed m ⟨ts.set k (t.settle v.lock).1, (t.settle v.lock).2, es ++ [k]⟩ := by
  have hturn : (Task.acquire t).turn v = some (t.settle v.lock) := by simp only [Task.turn, hl, Bool.false_eq_true,
    if_false]
  have hset := h.turn ha (List.getElem?_set_self hk) hturn
  simpa only [List.set_set, Task.isAtLock, if_true] using hset

/-! ## Schedules -/

/-- A task that runs on to the next place where others may run has a number of turns. -/
theorem advance (hk : k < ts.length) (t : Task α β) {v : State α} {es : List Nat}
    (h : Interleaved Freely m ⟨ts.set k (t.settle v).1, (t.settle v).2, es⟩) :
    ∃ es', Interleaved Freely m ⟨ts.set k (t.advance v).1, (t.advance v).2, es'⟩ := by
  induction t generalizing v es with
  | done b => exact ⟨es, h⟩
  | fail e => exact ⟨es, h⟩
  | act f k ih => exact ih _ h
  | call f k ih => exact ⟨es, h⟩
  | acquire k ih =>
    rw [Task.advance]
    split
    · exact ⟨es, h⟩
    · rename_i hl
      exact ih (h.enter hk trivial (by simpa using hl))
  | release k ih => exact ih h

theorem resume (ht : ts[k]? = some t) (h : Interleaved Freely m ⟨ts, v, es⟩) :
    ∃ es', Interleaved Freely m ⟨ts.set k (t.resume v).1, (t.resume v).2, es'⟩ := by
  obtain ⟨hk, hget⟩ := List.getElem?_eq_some_iff.mp ht
  rw [← List.set_getElem_self hk, hget] at h
  cases t with
  | done b => exact ⟨es, h⟩
  | fail e => exact ⟨es, h⟩
  | act f g => exact advance hk (.act f g) (h.next hk trivial rfl rfl)
  | call f g => exact advance hk (g (f v).1) (h.next hk trivial rfl rfl)
  | acquire g => exact advance hk (.acquire g) h
  | release g => exact advance hk (.release g) (h.next hk trivial rfl rfl)

end Interleaved

/-- **Every schedule is a run in turns.** -/
theorem interleaved_interleave (turns : List Nat) (ts : List (Task α β)) (w : State α) :
    ∃ es, Interleaved Freely ⟨ts, w, []⟩ ⟨(interleave turns ts w).1, (interleave turns ts w).2, es⟩ := by
  have h : ∀ us v es, Interleaved Freely ⟨ts, w, []⟩ ⟨us, v, es⟩ →
      ∃ es', Interleaved Freely ⟨ts, w, []⟩ ⟨(interleave turns us v).1, (interleave turns us v).2, es'⟩ := by
    induction turns with
    | nil => exact fun _ _ es h => ⟨es, h⟩
    | cons i turns ih =>
      intro us v es h
      unfold interleave
      split
      · rename_i t ht
        obtain ⟨es', h'⟩ := h.resume ht
        exact ih _ _ es' h'
      · exact ih _ _ es h
  exact h ts w [] .start

/-! ## All turns to one task -/

namespace Interleaved

variable {allowed : Moment α β → Nat → Prop} {m : Moment α β} {ts : List (Task α β)} {v : State α} {k : Nat}
  {es : List Nat}

/-- A stretch that leaves the lock alone, and what comes after it. -/
theorem lockless (hk : k < ts.length) {t : Task α γ} (ht : Task.Lockless t) (g : γ → Task α β)
    (ha : ∀ t' v', t'.isAtLock = false → allowed ⟨ts.set k t', v', es⟩ k)
    (h : Interleaved allowed m ⟨ts.set k ((t.bind g).settle v).1, ((t.bind g).settle v).2, es⟩) :
    Interleaved allowed m ⟨ts.set k (((Task.ofExcept (t.run v).1).bind g).settle (t.run v).2).1,
      (((Task.ofExcept (t.run v).1).bind g).settle (t.run v).2).2, es⟩ := by
  induction ht generalizing v with
  | done b => exact h
  | fail e => exact h
  | act _ _ ih => exact ih _ h
  | call _ _ ih => exact ih _ (h.next hk (ha _ _ rfl) rfl rfl)

/-- A stretch under the lock, and what comes after it. -/
theorem locked (hk : k < ts.length) {t : Task α γ} (ht : Task.Lockless t) (g : γ → Task α β)
    (ha : ∀ t' v', t'.isAtLock = false → allowed ⟨ts.set k t', v', es ++ [k]⟩ k) (hl : v.isLocked = false)
    (ha' : allowed ⟨ts.set k ((Task.locked t).bind g), v, es⟩ k)
    (h : Interleaved allowed m ⟨ts.set k ((Task.locked t).bind g), v, es⟩) :
    Interleaved allowed m ⟨ts.set k (((Task.ofExcept (t.run v.lock).1).bind g).settle (t.run v.lock).2.unlock).1,
      (((Task.ofExcept (t.run v.lock).1).bind g).settle (t.run v.lock).2.unlock).2, es ++ [k]⟩ := by
  have hinner := h.enter hk ha' hl
  rw [show (t.attempt.bind fun r => Task.release (Task.ofExcept r)).bind g = _ from Task.bind_assoc _ _ _] at hinner
  have hrun := lockless hk ht.attempt _ ha hinner
  rw [Task.run_attempt] at hrun
  exact hrun

theorem settle_ofExcept (r : Except Fault β) (v : State α) :
    (Task.ofExcept r : Task α β).settle v = (Task.ofExcept r, v) := by
  cases r <;> rfl

/-- A task that was run on to its first place where others may run, and has all turns to itself. -/
theorem alone_settled (hk : k < ts.length) {t : Task α β} (ht : Task.Orderly t)
    (ha : ∀ t' v' es', es ⊆ es' → allowed ⟨ts.set k t', v', es'⟩ k) (hl : v.isLocked = false)
    (h : Interleaved allowed m ⟨ts.set k (t.settle v).1, (t.settle v).2, es⟩) :
    ∃ es', Interleaved allowed m ⟨ts.set k (Task.ofExcept (t.run v).1), (t.run v).2, es'⟩ := by
  induction ht generalizing v es with
  | @lockless t ht =>
    rw [← Task.bind_done t] at h
    have hrun := lockless hk ht _ (fun t' v' _ => ha t' v' es fun _ => id) h
    rw [Task.bind_done, settle_ofExcept] at hrun
    exact ⟨es, hrun⟩
  | act hf _ ih => exact ih _ ha ((hf v).trans hl) h
  | call hf _ ih => exact ih _ ha ((hf v).trans hl) (h.next hk (ha _ _ _ fun _ => id) rfl rfl)
  | @locked δ t g ht _ ih =>
    have hgrown : es ⊆ es ++ [k] := List.subset_append_left _ _
    have hrun := locked hk ht g (fun t' v' _ => ha t' v' _ hgrown) hl (ha _ _ _ fun _ => id) h
    rw [Task.run_bind', Task.run_locked]
    cases hr : (t.run v.lock).1 with
    | error e =>
      rw [hr] at hrun
      exact ⟨_, hrun⟩
    | ok c =>
      rw [hr] at hrun
      exact ih c (fun t' v' es' hes => ha t' v' es' fun _ he => hes (hgrown he)) rfl hrun

/-- A task runs on to its first place where others may run. -/
theorem settle {t : Task α β} (ht : ts[k]? = some t) (ha : t.isAtLock = false → allowed ⟨ts, v, es⟩ k)
    (h : Interleaved allowed m ⟨ts, v, es⟩) :
    Interleaved allowed m ⟨ts.set k (t.settle v).1, (t.settle v).2, es⟩ := by
  obtain ⟨hk, hget⟩ := List.getElem?_eq_some_iff.mp ht
  have hset : ts.set k t = ts := by rw [← hget, List.set_getElem_self]
  rw [← hset] at h ha
  cases t with
  | done b => exact h
  | fail e => exact h
  | act f g => exact h.next hk (ha rfl) rfl rfl
  | call f g => exact h
  | acquire g => exact h
  | release g => exact h.next hk (ha rfl) rfl rfl

/-- **A task that has all turns to itself does what it does when it is run alone.** -/
theorem alone {t : Task α β} (ht : ts[k]? = some t) (hto : Task.Orderly t)
    (ha : ∀ t' v' es', es ⊆ es' → allowed ⟨ts.set k t', v', es'⟩ k) (hl : v.isLocked = false)
    (h : Interleaved allowed m ⟨ts, v, es⟩) :
    ∃ es', Interleaved allowed m ⟨ts.set k (Task.ofExcept (t.run v).1), (t.run v).2, es'⟩ := by
  obtain ⟨hk, hget⟩ := List.getElem?_eq_some_iff.mp ht
  refine alone_settled hk hto ha hl (settle ht (fun _ => ?_) h)
  have hset := ha t v es fun _ => id
  rwa [← hget, List.set_getElem_self] at hset

/-- A task that takes the lock and has all turns to itself. -/
theorem entering {t : Task α γ} {g : γ → Task α β} (ht : ts[k]? = some ((Task.locked t).bind g))
    (hto : Task.Lockless t) (hg : ∀ c, Task.Orderly (g c)) (ha : allowed ⟨ts, v, es⟩ k)
    (ha' : ∀ t' v' es', k ∈ es' → allowed ⟨ts.set k t', v', es'⟩ k) (hl : v.isLocked = false)
    (h : Interleaved allowed m ⟨ts, v, es⟩) :
    ∃ es', Interleaved allowed m ⟨ts.set k (Task.ofExcept (((Task.locked t).bind g).run v).1),
      (((Task.locked t).bind g).run v).2, es'⟩ := by
  obtain ⟨hk, hget⟩ := List.getElem?_eq_some_iff.mp ht
  have hset : ts.set k ((Task.locked t).bind g) = ts := by rw [← hget, List.set_getElem_self]
  have hentered : k ∈ es ++ [k] := by simp
  have hrun := locked hk hto g (fun t' v' _ => ha' t' v' _ hentered) hl (by rwa [hset]) (by rwa [hset])
  rw [Task.run_bind', Task.run_locked]
  cases hr : (t.run v.lock).1 with
  | error e =>
    rw [hr] at hrun
    exact ⟨_, hrun⟩
  | ok c =>
    rw [hr] at hrun
    exact alone_settled hk (hg c) (fun t' v' es' hes => ha' t' v' es' (hes hentered)) rfl hrun

end Interleaved

end Shelfmark.Engine
