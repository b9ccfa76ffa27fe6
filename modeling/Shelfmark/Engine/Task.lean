import Shelfmark.Engine.State

/-!
# Tasks

An operation of the engine is a task: steps on the state, calls of the store, and the taking and giving back of the
lock.  Between its calls of the store, and while it waits for the lock, other tasks may run.

* `Task.run`: runs a task from beginning to end.
* `Task.attempt`: what a task answers or why it fails.
* `Task.locked`: runs a task under the lock.
* `interleave`: runs several tasks in turns.
-/

namespace Shelfmark.Engine

/-- An operation with an answer of type `β`. -/
inductive Task (α β : Type) : Type 1
  /-- The answer. -/
  | done (b : β)
  /-- The task fails. -/
  | fail (e : Fault)
  /-- A step that nothing can come between. -/
  | act {γ : Type} (f : State α → γ × State α) (k : γ → Task α β)
  /-- A step that other tasks may come in front of, and that may fail. -/
  | call {γ : Type} (f : State α → Except Fault γ × State α) (k : Except Fault γ → Task α β)
  /-- Takes the lock; waits while another task holds it. -/
  | acquire (k : Task α β)
  /-- Gives the lock back. -/
  | release (k : Task α β)

namespace Task

variable {α β γ : Type}

/-- Goes on with the answer of a task. -/
def bind (t : Task α β) (g : β → Task α γ) : Task α γ :=
  match t with
  | done b => g b
  | fail e => fail e
  | act f k => act f fun c => (k c).bind g
  | call f k => call f fun c => (k c).bind g
  | acquire k => acquire (k.bind g)
  | release k => release (k.bind g)

instance : Monad (Task α) where
  pure := done
  bind := bind

/-- What a task answers, or why it fails. -/
def attempt : Task α β → Task α (Except Fault β)
  | done b => done (.ok b)
  | fail e => done (.error e)
  | act f k => act f fun c => (k c).attempt
  | call f k => call f fun c => (k c).attempt
  | acquire k => acquire k.attempt
  | release k => release k.attempt

/-- The answer of something that may have failed. -/
def ofExcept : Except Fault β → Task α β
  | .ok b => done b
  | .error e => fail e

/-- Looks at the state. -/
def look (f : State α → β) : Task α β := act (fun w => (f w, w)) done

/-- Changes the state. -/
def change (f : State α → State α) : Task α Unit := act (fun w => ((), f w)) done

/-- Lets other tasks run. -/
def pause : Task α Unit := call (fun w => (.ok (), w)) ofExcept

/-- Runs a task under the lock. -/
def locked (t : Task α β) : Task α β :=
  acquire (t.attempt.bind fun r => release (ofExcept r))

/-- Calls the store.  An operation that is out of order does nothing, nor does one on a store that is closed. -/
def store (op : StoreOperation) (f : State α → Except Fault β × State α) : Task α β :=
  call (fun w =>
    match w.faultOf op with
    | some message => (.error (.storeDown message), w)
    | none => if w.store.isOpen then f w else (.error .storeClosed, w)) ofExcept

/-! ## Running -/

/-- Runs a task from beginning to end, with no other task beside it. -/
def run : Task α β → State α → Except Fault β × State α
  | done b, w => (.ok b, w)
  | fail e, w => (.error e, w)
  | act f k, w =>
    let (c, w) := f w
    (k c).run w
  | call f k, w =>
    let (c, w) := f w
    (k c).run w
  | acquire k, w => k.run { w with isLocked := true }
  | release k, w => k.run { w with isLocked := false }

/-- Runs a task up to the next place where other tasks may run, or to its end. -/
def advance : Task α β → State α → Task α β × State α
  | done b, w => (done b, w)
  | fail e, w => (fail e, w)
  | act f k, w =>
    let (c, w) := f w
    (k c).advance w
  | call f k, w => (call f k, w)
  | acquire k, w => if w.isLocked then (acquire k, w) else k.advance { w with isLocked := true }
  | release k, w => k.advance { w with isLocked := false }

/-- Lets a task have its turn: it makes the call that it stands before and runs on to the next place where other tasks
may run. -/
def resume : Task α β → State α → Task α β × State α
  | call f k, w =>
    let (c, w) := f w
    (k c).advance w
  | t, w => t.advance w

/-- What a task has answered, if it has ended. -/
def result? : Task α β → Option (Except Fault β)
  | done b => some (.ok b)
  | fail e => some (.error e)
  | _ => none

end Task

/-- Runs several tasks in turns; each turn is given to the task with the next number. -/
def interleave {α β : Type} : List Nat → List (Task α β) → State α → List (Task α β) × State α
  | [], ts, w => (ts, w)
  | i :: turns, ts, w =>
    match ts[i]? with
    | some t =>
      let (t, w) := t.resume w
      interleave turns (ts.set i t) w
    | none => interleave turns ts w

end Shelfmark.Engine
