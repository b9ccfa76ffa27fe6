import Shelfmark.Proofs.Engine.Saving
import Shelfmark.Proofs.Engine.Turns

/-!
# Reports of changes

A bookmark is changed in the store, and at some later time the change is reported to the engine, which changes the index
(`IndexChange.report`).

- Where an index is in memory, the engine looks up its number and then takes the lock to change the index with this
  number (`IndexChange.rest`, `settle_task`);
- a report takes the lock for stretches in which it leaves it alone, and gives it back (`orderly_report`);
- where no other call is under way, a call that reports the last change brings index and store in step (`AtRest.call`).
-/

namespace Shelfmark.Engine

variable {α : Type} {w : State α} {c : IndexChange} {i : Nat}

/-! ## Reports -/

namespace Write

/-- The call of the store that makes the change. -/
def call (x : Write) : Task α Unit :=
  match x with
  | keep b => keepAll [b] >>= fun _ => pure ()
  | delete id => deleteBookmark id >>= fun _ => pure ()

/-- The change of a bookmark in the store. -/
def task (x : Write) : Task α Unit :=
  match x with
  | keep b => keepOne b
  | delete id => deleteBookmark id >>= fun _ => pure ()

/-- The state in which the change is made. -/
def make (x : Write) (w : State α) : State α :=
  match x with
  | keep b => { w with store := { w.store with shelf := w.store.shelf.put b } }
  | delete id => { w with store := w.store.delete id }

end Write

/-- Changes the index with a number, and caches its snapshot. -/
def changeFrom (i : Nat) (f : Index → Index × Except Fault Unit) : Task α Unit := do
  Task.locked do
    changeEdition i f
    saveEdition i
  forgetSimilar

/-- Removes a document from the index with a number, and caches the snapshot if it was there. -/
def withdraw (i : Nat) (id : String) : Task α Bool := do
  let removed ← Task.look fun w => (w.edition i).index.contains id
  changeEdition i fun ix => (ix.remove id, .ok ())
  if removed then saveEdition i
  return removed

/-- Removes a bookmark from the index with a number: whether it was there. -/
def removeFrom (i : Nat) (id : String) : Task α Bool := do
  let removed ← Task.locked (withdraw i id)
  if removed then forgetSimilar
  return removed

namespace IndexChange

/-- The change of the store that is reported. -/
def write? (c : IndexChange) : Option Write :=
  match c with
  | rebuild => none
  | add b | update b => some (.keep b)
  | remove id => some (.delete id)

/-- The change says what the index holds of a bookmark: it is one of this bookmark, or the index is made anew. -/
def Concerns (c : IndexChange) (id : String) : Prop := ∀ x ∈ c.write?, x.id = id

/-- The engine is called at some time. -/
def call (c : IndexChange) : Task α Unit := Task.pause >>= fun _ => c.task true

/-- The store is changed, and the engine is called at some later time. -/
def report (c : IndexChange) : Task α Unit :=
  match c.write? with
  | none => c.call
  | some x => x.task >>= fun _ => c.call

theorem report_of_write {x : Write} (hx : c.write? = some x) :
    c.report = (x.task : Task α Unit).bind fun _ => c.call := by
  simp only [report, hx]
  rfl

theorem run_call (c : IndexChange) (w : State α) : (c.call : Task α Unit).run w = (c.task true).run w :=
  Task.run_bind _ _ w

theorem write_of_ne (hc : c ≠ .rebuild) : ∃ x, c.write? = some x := by
  cases c with
  | rebuild => exact absurd rfl hc
  | add b | update b | remove id => exact ⟨_, rfl⟩

/-- What is left of the call of the engine once it has looked up the number of the current index. -/
def rest (c : IndexChange) (i : Nat) : Task α Unit :=
  match c with
  | rebuild => rebuildIndex >>= fun _ => pure ()
  | add b => changeFrom i (·.add b)
  | update b => changeFrom i (·.update b)
  | remove id => removeFrom i id >>= fun _ => pure ()

/-- A change of the index that is there begins with looking up its number. -/
theorem task_eq (hc : c ≠ .rebuild) : (c.task true : Task α Unit) = loadIndex >>= c.rest := by
  cases c with
  | rebuild => exact absurd rfl hc
  | add b | update b => rfl
  | remove id =>
    have hremove : removeBookmark id true = loadIndex >>= fun i => (removeFrom i id : Task α Bool) := by
      simp only [removeBookmark, removeFrom, withdraw, Bool.and_true]
    rw [task, hremove]
    exact Task.bind_assoc _ _ _

end IndexChange

theorem settle_loadIndex {β : Type} (hi : w.current = some i) (g : Nat → Task α β) :
    (loadIndex >>= g).settle w = (g i).settle w := by
  have hlook : ∀ k : Option Nat → Task α Nat,
      ((Task.look (·.current) >>= k) >>= g).settle w = (k w.current >>= g).settle w := fun _ => rfl
  rw [loadIndex, hlook, hi]
  rfl

/-- Where an index is in memory, its number is looked up and the lock is to be taken. -/
theorem settle_task (hi : w.current = some i) (c : IndexChange) : (c.task true).settle w = (c.rest i, w) := by
  by_cases hc : c = .rebuild
  · subst hc
    rfl
  · rw [IndexChange.task_eq hc, settle_loadIndex hi]
    cases c <;> rfl

/-! ## Taking the lock -/

theorem lockless_cacheValue (key : String) (v : Json) (lifetime : Option Number) :
    Task.Lockless (cacheValue key v lifetime : Task α Unit) := by
  refine .store _ fun w => ?_
  split <;> rfl

theorem lockless_clearCached (pattern : String) : Task.Lockless (clearCached pattern : Task α Nat) := by
  refine .store _ fun w => ?_
  split <;> rfl

theorem lockless_saveIndex (ix : Index) : Task.Lockless (saveIndex ix : Task α Unit) :=
  .bind (.look _) fun _ => lockless_cacheValue _ _ _

theorem lockless_buildIndex : Task.Lockless (buildIndex : Task α Index) :=
  .bind (.store _ fun _ => rfl) fun _ => .bind (lockless_saveIndex _) fun _ => .done _

theorem lockless_loadSnapshot : Task.Lockless (loadSnapshot : Task α (Option Index)) := by
  refine .bind (.attempt (.store _ fun _ => rfl)) fun r => ?_
  cases r with
  | ok v => exact .bind (.look _) fun _ => .ofExcept _
  | error e =>
    dsimp only
    split
    · exact .done _
    · exact .fail _

theorem lockless_saveEdition (i : Nat) : Task.Lockless (saveEdition i : Task α Unit) :=
  .bind (.look _) fun _ => lockless_saveIndex _

theorem lockless_changeEdition (i : Nat) (f : Index → Index × Except Fault Unit) :
    Task.Lockless (changeEdition i f : Task α Unit) :=
  .bind (.act (fun _ => rfl) .done) .ofExcept

theorem orderly_forgetSimilar : Task.Orderly (forgetSimilar : Task α Unit) :=
  .locked (lockless_clearCached _) fun _ => .lockless (.done _)

theorem orderly_loadIndex : Task.Orderly (loadIndex : Task α Nat) := by
  refine .bind (.lockless (.look _)) fun current => ?_
  cases current with
  | some i => exact .lockless (.done i)
  | none =>
    refine .underLock (.bind (.look _) fun current => ?_)
    cases current with
    | some i => exact .done i
    | none =>
      refine .bind lockless_loadSnapshot fun ix => ?_
      cases ix with
      | some ix => exact .act (fun _ => rfl) .done
      | none => exact .bind lockless_buildIndex fun ix => .act (fun _ => rfl) .done

theorem lockless_withdraw (i : Nat) (id : String) : Task.Lockless (withdraw i id : Task α Bool) := by
  refine .bind (.look _) fun removed => .bind (lockless_changeEdition _ _) fun _ => ?_
  cases removed with
  | true => exact .bind (lockless_saveEdition _) fun _ => .done _
  | false => exact .done _

/-- A change of the index with a number begins with a stretch under the lock. -/
theorem IndexChange.rest_eq (hc : c ≠ .rebuild) (i : Nat) : ∃ (γ : Type) (t : Task α γ) (g : γ → Task α Unit),
    c.rest i = (Task.locked t).bind g ∧ Task.Lockless t ∧ ∀ a, Task.Orderly (g a) := by
  cases c with
  | rebuild => exact absurd rfl hc
  | add b | update b =>
    exact ⟨_, _, _, rfl, .bind (lockless_changeEdition _ _) fun _ => lockless_saveEdition _,
      fun _ => orderly_forgetSimilar⟩
  | remove id =>
    refine ⟨_, _, _, Task.bind_assoc _ _ _, lockless_withdraw i id, fun removed => ?_⟩
    cases removed with
    | true => exact .bind (.bind orderly_forgetSimilar fun _ => .lockless (.done _)) fun _ => .lockless (.done _)
    | false => exact .lockless (.done _)

theorem orderly_rebuildIndex : Task.Orderly (rebuildIndex : Task α Nat) :=
  .locked (.bind lockless_buildIndex fun _ => .act (fun _ => rfl) fun _ => .done _) fun _ =>
    .bind orderly_forgetSimilar fun _ => .lockless (.done _)

theorem orderly_task (c : IndexChange) : Task.Orderly (c.task true : Task α Unit) := by
  by_cases hc : c = .rebuild
  · subst hc
    exact .bind orderly_rebuildIndex fun _ => .lockless (.done _)
  · rw [IndexChange.task_eq hc]
    refine .bind orderly_loadIndex fun i => ?_
    obtain ⟨γ, t, g, hrest, ht, hg⟩ := IndexChange.rest_eq (α := α) hc i
    rw [hrest]
    exact .locked ht hg

theorem lockless_write (x : Write) : Task.Lockless (x.task : Task α Unit) := by
  cases x with
  | keep b =>
    refine .act (fun _ => rfl) fun message => ?_
    cases message with
    | some message => exact .fail _
    | none => exact .bind (.store _ fun _ => rfl) fun _ => .done _
  | delete id => exact .bind (.store _ fun _ => rfl) fun _ => .done _

theorem orderly_call (c : IndexChange) : Task.Orderly (c.call : Task α Unit) :=
  .bind (.call (fun _ => rfl) fun r => .lockless (.ofExcept r)) fun _ => orderly_task c

/-- A report takes the lock for stretches in which it leaves it alone. -/
theorem orderly_report (c : IndexChange) : Task.Orderly (c.report : Task α Unit) := by
  rw [IndexChange.report]
  cases c.write? with
  | none => exact orderly_call c
  | some x => exact .bind (.lockless (lockless_write x)) fun _ => orderly_call c

/-! ## Calls one after the other -/

/-- No call is under way: an index is loaded, it is in step with the store apart from a pending change, and the lock is
free. -/
structure AtRest (pending : Option Write) (w : State α) : Prop where
  inStep : InStep pending w
  free : w.isLocked = false
  loaded : ∃ i, w.current = some i

namespace AtRest

variable {w' : State α} {pending pending' : Option Write}

theorem write (h : AtRest none w) (x : Write) :
    (x.task : Task α Unit).run w = (.ok (), x.make w) ∧ AtRest (some x) (x.make w) := by
  obtain ⟨hstep, hfree, i, hi⟩ := h
  cases x with
  | keep b =>
    have hrun := run_keepOne (hstep.ready .upsertOne) (hstep.ready .upsertMany) b
    obtain ⟨w', hrun', _, hw'⟩ := hstep.keep b
    cases hrun.symm.trans hrun'
    exact ⟨hrun, hw', hfree, i, hi⟩
  | delete id =>
    have hrun := run_deleteBookmark (hstep.ready .delete) id
    obtain ⟨deleted, w', hrun', _, hw'⟩ := hstep.delete id
    cases hrun.symm.trans hrun'
    refine ⟨?_, hw', hfree, i, hi⟩
    show (deleteBookmark id >>= fun _ => pure ()).run w = _
    rw [Task.run_bind, hrun]
    rfl

/-- A call gives the lock back, and an index stays loaded. -/
theorem of_run (h : AtRest pending w) {c : IndexChange} {r : Except Fault Unit}
    (hrun : (c.task true).run w = (r, w')) (hw' : InStep pending' w') : AtRest pending' w' := by
  obtain ⟨i, hi⟩ := h.loaded
  obtain ⟨hlt, _, hm⟩ := h.inStep.loaded i hi
  have hfree := (orderly_task c).isLocked_run h.free
  have hcurrent := (outcome hi hlt hm.fields c true).current hi
  rw [hrun] at hfree hcurrent
  exact ⟨hw', hfree, hcurrent⟩

theorem rebuild (h : AtRest pending w) :
    ∃ w', (IndexChange.rebuild.task true).run w = (.ok (), w') ∧ AtRest pending w' := by
  obtain ⟨n, w', hrebuild, _, hw'⟩ := h.inStep.rebuild
  have hrun : (IndexChange.rebuild.task true).run w = (.ok (), w') := by
    rw [IndexChange.task, Task.run_bind, hrebuild]
    rfl
  exact ⟨w', hrun, h.of_run hrun hw'⟩

/-- A call that reports the pending change succeeds, and none is pending any more. -/
theorem call (h : AtRest c.write? w) : ∃ w', (c.task true).run w = (.ok (), w') ∧ AtRest none w' := by
  cases c with
  | rebuild => exact h.rebuild
  | add b =>
    obtain ⟨w', hrun, _, hw'⟩ := h.inStep.add
    exact ⟨w', hrun, h.of_run (c := .add b) hrun hw'⟩
  | update b =>
    obtain ⟨w', hrun, _, hw'⟩ := h.inStep.update
    exact ⟨w', hrun, h.of_run (c := .update b) hrun hw'⟩
  | remove id =>
    obtain ⟨removed, w', hremove, _, hw'⟩ := h.inStep.remove
    have hrun : ((IndexChange.remove id).task true).run w = (.ok (), w') := by
      rw [IndexChange.task, Task.run_bind, hremove]
      rfl
    exact ⟨w', hrun, h.of_run hrun hw'⟩

end AtRest

end Shelfmark.Engine
