import Shelfmark.Proofs.Engine.Courses
import Shelfmark.Proofs.Engine.Misses
import Shelfmark.Proofs.Engine.Stages

/-!
# The index is loaded once

Several calls load the index at the same time, while there is none.  The first of them that takes the lock loads it, and
the others wait for it (`Phase`, `Phase.turn`).

- Counting the calls in each phase shows what they have read and cached together (`Flight`, `Flight.step`);
- **they share one index, for which snapshot and bookmarks are read once** (`single_flight`); a call that fails leaves
  no index behind, and the next one that takes the lock begins anew.
-/

namespace Shelfmark.Engine

variable {α : Type} {w w' : State α} {ix : Index} {fs : Weather}

/-! ## Phases -/

/-- How far a call has come that loads the index. -/
inductive Phase
  /-- It has not looked for the current index. -/
  | entering
  /-- There was none, and the lock has not been taken. -/
  | waiting
  /-- The snapshot is about to be read, under the lock. -/
  | reading
  /-- The bookmarks are about to be read, under the lock. -/
  | building
  /-- The snapshot of a new index is about to be cached, under the lock. -/
  | saving (ix : Index) (now : Timestamp)
  | ended (r : Except Fault Nat)

/-- The index becomes the current one. -/
def enthrone (ix : Index) : Task α Nat := Task.act (·.publish ix) Task.done

/-- The index of the snapshot becomes the current one, or a new one if there is none. -/
def proceed (found : Option Index) : Task α Nat :=
  (match found with
    | some ix => Task.done ix
    | none => buildIndex).bind enthrone

namespace Phase

/-- What is left of the call. -/
def task : Phase → Task α Nat
  | entering => loadIndex
  | waiting => Task.locked loadAnew
  | reading => Task.under (loadSnapshot.bind proceed) Task.done
  | building => Task.under (buildIndex.bind enthrone) Task.done
  | saving ix now => Task.under ((cacheValue indexKey (indexEntry ix now) none).bind fun _ => enthrone ix) Task.done
  | ended r => Task.ofExcept r

/-- The lock is held. -/
def holds : Phase → Bool
  | reading | building | saving _ _ => true
  | _ => false

def isBuilding : Phase → Bool
  | building => true
  | _ => false

def isSaving : Phase → Bool
  | saving _ _ => true
  | _ => false

/-- The snapshot was read, and no index is published yet. -/
def inHand (p : Phase) : Bool := p.isBuilding || p.isSaving

/-- The call has failed. -/
def hasFailed : Phase → Bool
  | ended (.error _) => true
  | _ => false

/-- The operation of the store that is called next. -/
def call? : Phase → Option StoreOperation
  | reading => some .getCache
  | building => some .getAll
  | saving _ _ => some .setCache
  | _ => none

/-- How many turns are left at most. -/
def left : Phase → Nat
  | entering => 5
  | waiting => 4
  | reading => 3
  | building => 2
  | saving _ _ => 1
  | ended _ => 0

theorem calls_task (p : Phase) (op : StoreOperation) : (p.task : Task α Nat).calls op = (p.call? == some op) := by
  cases p with
  | entering | waiting => rfl
  | reading => exact Task.calls_calling .getCache op _ _
  | building => exact Task.calls_calling .getAll op _ _
  | saving => exact Task.calls_calling .setCache op _ _
  | ended r => cases r <;> rfl

/-- What a call does in one turn. -/
inductive Step : Phase → State α → Phase → State α → Prop
  | look {w : State α} (h : w.current = none) : Step entering w waiting w
  | found {w : State α} {i : Nat} (h : w.current = some i) : Step entering w (ended (.ok i)) w
  | take {w : State α} (hl : w.isLocked = false) (h : w.current = none) : Step waiting w reading w.lock
  | awaited {w : State α} {i : Nat} (hl : w.isLocked = false) (h : w.current = some i) :
      Step waiting w (ended (.ok i)) w
  | restore {w : State α} {ix : Index} (hr : w.Ready .getCache) (hs : w.cachedIndex = .ok (some ix)) :
      Step reading w (ended (.ok w.editions.length)) ((w.withCache w.indexLookup.2).withIndex ix)
  | miss {w : State α} (hr : w.Ready .getCache) (hs : w.cachedIndex = .ok none) :
      Step reading w building (w.putCache w.indexLookup.2)
  | refuse {w : State α} {e : Fault} (hr : w.Ready .getCache) (hs : w.cachedIndex = .error e) :
      Step reading w (ended (.error e)) (w.putCache w.indexLookup.2).unlock
  | read {w : State α} (hr : w.Ready .getAll) : Step building w (saving w.builtIndex w.now) w
  | save {w : State α} {ix : Index} {now : Timestamp} (hr : w.Ready .setCache) :
      Step (saving ix now) w (ended (.ok w.editions.length)) ((w.keeping ix now).withIndex ix)
  | fail {w : State α} {p : Phase} {op : StoreOperation} {e : Fault} (hop : p.call? = some op) (hr : ¬w.Ready op) :
      Step p w (ended (.error e)) w.unlock

/-! ## Turns -/

theorem turn_entering (w : State α) : (entering.task : Task α Nat).turn w = some (match w.current with
    | some i => (ended (.ok i)).task
    | none => waiting.task, w) := by
  cases h : w.current with
  | some i =>
    show some (loadIndex.settle w) = _
    rw [← Task.bind_done loadIndex]
    exact congrArg some (settle_loadIndex h Task.done)
  | none =>
    have hlook : loadIndex.turn w = some ((match w.current with
        | some i => pure i
        | none => Task.locked loadAnew : Task α Nat).settle w) := rfl
    exact hlook.trans (by rw [h]; rfl)

theorem loadAnew_eq : (loadAnew : Task α Nat) = (Task.look (·.current)).bind fun current =>
    match current with
    | some i => Task.done i
    | none => loadSnapshot.bind proceed := by
  refine congrArg (Task.bind _) (funext fun current => ?_)
  cases current with
  | some i => rfl
  | none =>
    refine congrArg (Task.bind _) (funext fun found => ?_)
    cases found <;> rfl

theorem unlock_lock (hl : w.isLocked = false) : w.lock.unlock = w := by
  obtain ⟨_, _, _, _, _, _, _, locked⟩ := w
  cases hl
  rfl

theorem turn_waiting (w : State α) : (waiting.task : Task α Nat).turn w =
    if w.isLocked then none else some (match w.current with
      | some i => ((ended (.ok i)).task, w.lock.unlock)
      | none => (reading.task, w.lock)) := by
  rw [task, ← Task.bind_done (Task.locked loadAnew), Task.turn_locked]
  split
  · rfl
  · have hlook : (Task.under loadAnew Task.done).settle w.lock = (Task.under (match w.current with
        | some i => Task.done i
        | none => loadSnapshot.bind proceed) Task.done).settle w.lock := by
      rw [loadAnew_eq]
      rfl
    rw [hlook]
    cases w.current <;> rfl

/-- The index in what was read, if the cache could be read. -/
def decoded (r : Except Fault Json) : Task α (Option Index) :=
  match r with
  | .ok v => (Task.look (·.host.room)).bind fun room => Task.ofExcept (indexIn room v)
  | .error e => if e.isRefusal then Task.done none else Task.fail e

theorem loadSnapshot_eq : (loadSnapshot : Task α (Option Index)) = (cached indexKey).attempt.bind decoded := by
  refine congrArg (Task.bind _) (funext fun r => ?_)
  cases r <;> rfl

/-- What was read is decoded where it was read. -/
theorem settle_decoded (r : Except Fault Json) {γ δ : Type} (h : Option Index → Task α γ) (g : γ → Task α δ)
    (w : State α) : (Task.under ((decoded r).bind h) g).settle w =
      (Task.under ((Task.ofExcept (indexFound w.host.room r)).bind h) g).settle w := by
  cases r with
  | ok v => rfl
  | error e =>
    rw [decoded, indexFound]
    cases e.isRefusal <;> rfl

theorem turn_under_attempt {β γ δ ε : Type} (op : StoreOperation) (f : State α → Except Fault δ × State α)
    (d : Except Fault δ → Task α ε) (h : ε → Task α γ) (g : γ → Task α β) (w : State α) :
    (Task.under (((Task.store op f).attempt.bind d).bind h) g).turn w =
      some ((Task.under ((d ((Task.store op f).run w).1).bind h) g).settle ((Task.store op f).run w).2) := by
  have hrun : (Task.store op f).run w = Task.calling op f w := Task.run_ofExcept _ _
  have hattempt : ∀ r, (Task.ofExcept r).attempt.bind d = d r := by rintro (_ | _) <;> rfl
  rw [hrun, ← hattempt]
  rfl

theorem turn_reading (w : State α) : (reading.task : Task α Nat).turn w =
    some ((Task.under ((decoded ((cached indexKey).run w).1).bind proceed) Task.done).settle
      ((cached indexKey).run w).2) := by
  rw [task, loadSnapshot_eq]
  exact turn_under_attempt _ _ _ _ _ w

theorem buildIndex_eq : (buildIndex : Task α Index).bind enthrone = allBookmarks.bind fun bs =>
    (Task.look fun w => indexEntry (Index.ofBookmarks bs) w.now).bind fun entry =>
      (cacheValue indexKey entry none).bind fun _ => enthrone (Index.ofBookmarks bs) := by
  simp only [buildIndex, saveIndex, bind, pure, Task.bind_assoc]
  rfl

section Turns

variable {t' : Task α Nat}

/-- The call looks for the current index. -/
theorem step_entering (h : entering.task.turn w = some (t', w')) : ∃ p', t' = p'.task ∧ Step entering w p' w' := by
  rw [turn_entering] at h
  cases hw : w.current with
  | some i =>
    rw [hw] at h
    cases h
    exact ⟨ended (.ok i), rfl, .found hw⟩
  | none =>
    rw [hw] at h
    cases h
    exact ⟨waiting, rfl, .look hw⟩

/-- The lock is taken, and the call looks for the current index once more. -/
theorem step_waiting (h : waiting.task.turn w = some (t', w')) : ∃ p', t' = p'.task ∧ Step waiting w p' w' := by
  rw [turn_waiting] at h
  split at h
  · cases h
  · rename_i hl
    have hl : w.isLocked = false := by simpa using hl
    cases hw : w.current with
    | some i =>
      rw [hw] at h
      cases h
      refine ⟨ended (.ok i), rfl, ?_⟩
      rw [unlock_lock hl]
      exact .awaited hl hw
    | none =>
      rw [hw] at h
      cases h
      exact ⟨reading, rfl, .take hl hw⟩

/-- The snapshot is read: an index is found, there is none, or the cache cannot be read. -/
theorem step_reading (h : reading.task.turn w = some (t', w')) : ∃ p', t' = p'.task ∧ Step reading w p' w' := by
  rw [turn_reading] at h
  by_cases hr : w.Ready .getCache
  · have hrun : (cached indexKey).run w = (w.indexLookup.1, w.putCache w.indexLookup.2) := run_store hr _
    rw [hrun, settle_decoded] at h
    have hsettle : (Task.under ((Task.ofExcept w.cachedIndex).bind proceed) Task.done).settle
        (w.putCache w.indexLookup.2) = (t', w') := Option.some.inj h
    rcases hs : w.cachedIndex with e | _ | ix <;> rw [hs] at hsettle
    · cases hsettle
      exact ⟨ended (.error e), rfl, .refuse hr hs⟩
    · cases hsettle
      exact ⟨building, rfl, .miss hr hs⟩
    · cases hsettle
      exact ⟨ended (.ok w.editions.length), rfl, .restore hr hs⟩
  · obtain ⟨e, he, hrun⟩ := run_store_not_ready hr
    have hdecoded : decoded (.error e) = (Task.fail e : Task α _) := if_neg (by rw [he]; exact Bool.false_ne_true)
    rw [cached, hrun, hdecoded] at h
    cases h
    exact ⟨ended (.error e), rfl, .fail rfl hr⟩

/-- The bookmarks are read, or the store fails. -/
theorem step_building (h : building.task.turn w = some (t', w')) : ∃ p', t' = p'.task ∧ Step building w p' w' := by
  rw [task, buildIndex_eq, allBookmarks, Task.turn_under_store] at h
  by_cases hr : w.Ready .getAll
  · rw [run_store hr, mapM_reread] at h
    cases h
    exact ⟨saving w.builtIndex w.now, rfl, .read hr⟩
  · obtain ⟨e, _, hrun⟩ := run_store_not_ready hr
    rw [hrun] at h
    cases h
    exact ⟨ended (.error e), rfl, .fail rfl hr⟩

/-- The new index is cached and becomes the current one, or the store fails. -/
theorem step_saving {now : Timestamp} (h : (saving ix now).task.turn w = some (t', w')) :
    ∃ p', t' = p'.task ∧ Step (saving ix now) w p' w' := by
  rw [task, cacheValue, Task.turn_under_store] at h
  by_cases hr : w.Ready .setCache
  · rw [run_store hr, checkEntry_indexEntry] at h
    cases h
    exact ⟨ended (.ok w.editions.length), rfl, .save hr⟩
  · obtain ⟨e, _, hrun⟩ := run_store_not_ready hr
    rw [hrun] at h
    cases h
    exact ⟨ended (.error e), rfl, .fail rfl hr⟩

/-- **In its turn a call makes a step.** -/
theorem turn {p : Phase} (h : p.task.turn w = some (t', w')) : ∃ p', t' = p'.task ∧ Step p w p' w' := by
  cases p with
  | entering => exact step_entering h
  | waiting => exact step_waiting h
  | reading => exact step_reading h
  | building => exact step_building h
  | saving ix now => exact step_saving h
  | ended r => cases r <;> cases h

end Turns

/-- A call that has not ended has a turn, unless it must wait. -/
theorem exists_turn {p : Phase} (hp : ∀ r, p ≠ ended r) (hl : p = waiting → w.isLocked = false) :
    ∃ t' w', (p.task : Task α Nat).turn w = some (t', w') := by
  cases p with
  | entering => exact ⟨_, _, turn_entering w⟩
  | waiting =>
    have hturn := turn_waiting w
    rw [hl rfl, if_neg Bool.false_ne_true] at hturn
    exact ⟨_, _, hturn⟩
  | reading => exact ⟨_, _, turn_reading w⟩
  | building =>
    rw [task, buildIndex_eq]
    exact ⟨_, _, Task.turn_under_store _ _ _ _ w⟩
  | saving ix now => exact ⟨_, _, Task.turn_under_store _ _ _ _ w⟩
  | ended r => exact absurd rfl (hp r)

/-! ## What a step changes -/

section Balance

variable {p p' : Phase}

/-- A call takes the lock, gives it back, or leaves it as it is. -/
theorem Step.lock (h : Step p w p' w') (hp : p.holds = true → w.isLocked = true) :
    p'.holds.toNat + w.isLocked.toNat = p.holds.toNat + w'.isLocked.toNat := by
  cases h with
  | look | found | awaited | read => rfl
  | take hl => rw [hl]; rfl
  | miss => rfl
  | restore | refuse | save => rw [hp rfl]; rfl
  | fail hop =>
    cases p <;> cases hop <;> rw [hp rfl] <;> rfl

/-- The readings of the snapshot are those of the calls that failed or have an index in hand, and of the index that was
loaded. -/
theorem Step.snapshot (h : Step p w p' w') (hp : p.holds = true → w.current = none) :
    (p.call? == some .getCache).toNat + p.inHand.toNat + p.hasFailed.toNat + w.current.isSome.toNat =
      p'.inHand.toNat + p'.hasFailed.toNat + w'.current.isSome.toNat := by
  cases h with
  | look h | found h | take _ h | awaited _ h | miss | refuse | read => rfl
  | restore | save => rw [hp rfl]; rfl
  | fail hop => cases p <;> cases hop <;> rfl

theorem Step.bookmarks (h : Step p w p' w') : (p.call? == some .getAll).toNat + p'.isBuilding.toNat ≤
    p.isBuilding.toNat + (p.call? == some .getCache).toNat := by
  cases h with
  | look | found | take | awaited | restore | miss | refuse | read | save => exact Nat.le_of_ble_eq_true rfl
  | fail hop => cases p <;> cases hop <;> exact Nat.le_of_ble_eq_true rfl

theorem Step.saved (h : Step p w p' w') : (p.call? == some .setCache).toNat + p'.isSaving.toNat ≤
    p.isSaving.toNat + (p.call? == some .getAll).toNat := by
  cases h with
  | look | found | take | awaited | restore | miss | refuse | read | save => exact Nat.le_of_ble_eq_true rfl
  | fail hop => cases p <;> cases hop <;> exact Nat.le_of_ble_eq_true rfl

theorem Step.left (h : Step p w p' w') : p'.left + 1 ≤ p.left := by
  cases h with
  | look | found | take | awaited | restore | miss | refuse | read | save => exact Nat.le_of_ble_eq_true rfl
  | fail hop => cases p <;> cases hop <;> exact Nat.le_of_ble_eq_true rfl

/-- An index is published where there was none. -/
theorem Step.published (h : Step p w p' w') : (w'.current = w.current ∧ w'.editions = w.editions) ∨
    p.holds = true ∧ w'.current = some w.editions.length ∧ ∃ ix, w'.editions = w.editions ++ [⟨ix, false⟩] := by
  cases h with
  | look | found | take | awaited | miss | refuse | read | fail => exact .inl ⟨rfl, rfl⟩
  | restore | save => exact .inr ⟨rfl, rfl, _, rfl⟩

/-- No index is loaded while the lock is held. -/
theorem Step.unloaded (h : Step p w p' w') (hw : w.isLocked = true → w.current = none) (hl : w'.isLocked = true) :
    w'.current = none := by
  cases h with
  | look | found | awaited | miss | read => exact hw hl
  | take _ h => exact h
  | restore | refuse | save | fail => cases hl

/-- The answer is the current index. -/
theorem Step.answers {i : Nat} (h : Step p w (ended (.ok i)) w') : w'.current = some i := by
  cases h with
  | found h | awaited _ h => exact h
  | restore | save => rfl

/-- A call fails under the lock, which is given back, and publishes no index. -/
theorem Step.failing {e : Fault} (h : Step p w (ended (.error e)) w') :
    p.holds = true ∧ w'.current = w.current ∧ w'.editions = w.editions ∧ w'.isLocked = false := by
  cases h with
  | refuse => exact ⟨rfl, rfl, rfl, rfl⟩
  | fail hop =>
    refine ⟨?_, rfl, rfl, rfl⟩
    cases p <;> cases hop <;> rfl

/-- No call fails where every operation is in order and what is cached gives an index or nothing. -/
theorem Step.hasFailed (h : Step p w p' w') (hw : ∀ op, w.Ready op) (hc : ∃ found, w.cachedIndex = .ok found) :
    p'.hasFailed = false := by
  cases h with
  | refuse _ hs =>
    obtain ⟨_, hfound⟩ := hc
    cases hfound.symm.trans hs
  | fail _ hr => exact absurd (hw _) hr
  | _ => rfl

/-- What is cached gives an index or nothing after the step, too. -/
theorem Step.cachedIndex (h : Step p w p' w') (hc : ∃ found, w.cachedIndex = .ok found) :
    ∃ found, w'.cachedIndex = .ok found := by
  cases h with
  | look | found | take | awaited | read | fail => exact hc
  | restore | miss | refuse =>
    obtain ⟨found, hfound⟩ := hc
    exact ⟨found, (cachedIndex_withCache w).trans hfound⟩
  | @save _ ix now =>
    have hlookup : (w.keeping ix now).indexLookup = (.ok (indexEntry ix now), _) :=
      Cache.get_of_value Cache.entry_set rfl rfl
    obtain ⟨found, hfound⟩ := exists_indexIn (checkEntry_eq_ok_iff.mp (checkEntry_indexEntry w.host ix now)).1
    refine ⟨found, ?_⟩
    show indexFound w.host.room (w.keeping ix now).indexLookup.1 = _
    rw [hlookup]
    exact hfound

theorem Step.sameShelf (h : Step p w p' w') : SameShelf w w' := by
  cases h <;> exact ⟨rfl, rfl, rfl, rfl, rfl, rfl⟩

end Balance

end Phase

/-! ## Several calls -/

open Phase

/-- How many turns are left at most. -/
def turnsLeft : List Phase → Nat
  | [] => 0
  | p :: ps => p.left + turnsLeft ps

theorem turnsLeft_append (ps ps' : List Phase) : turnsLeft (ps ++ ps') = turnsLeft ps + turnsLeft ps' := by
  induction ps with
  | nil => exact (Nat.zero_add _).symm
  | cons p ps ih => rw [List.cons_append, turnsLeft, turnsLeft, ih, Nat.add_assoc]

theorem turnsLeft_replicate (n : Nat) (p : Phase) : turnsLeft (List.replicate n p) = p.left * n := by
  induction n with
  | zero => rfl
  | succ n ih => rw [List.replicate_succ, turnsLeft, ih, Nat.mul_succ, Nat.add_comm]

/-- The count of phases with one of them apart. -/
theorem countP_split (f : Phase → Bool) (l₁ l₂ : List Phase) (p : Phase) :
    (l₁ ++ p :: l₂).countP f = l₁.countP f + l₂.countP f + (f p).toNat := by
  rw [List.countP_append, List.countP_cons, Nat.add_assoc]
  cases f p <;> rfl

/-- What calls in some phases have done together since there was no index, in a number of turns for each of them. -/
structure Flight (w : State α) (n : Nat) (ps : List Phase) (c : Course α Nat) : Prop where
  tasks : c.tasks = ps.map (·.task)
  length : ps.length = n
  lock : ps.countP (·.holds) = c.state.isLocked.toNat
  unloaded : c.state.isLocked = true → c.state.current = none
  published : c.state.current = none ∧ c.state.editions = w.editions ∨
    c.state.current = some w.editions.length ∧ ∃ ix, c.state.editions = w.editions ++ [⟨ix, false⟩]
  answers : ∀ i, .ended (.ok i) ∈ ps → c.state.current = some i
  snapshot : c.count .getCache =
    ps.countP (·.inHand) + ps.countP (·.hasFailed) + c.state.current.isSome.toNat
  bookmarks : c.count .getAll + ps.countP (·.isBuilding) ≤ c.count .getCache
  saved : c.count .setCache + ps.countP (·.isSaving) ≤ c.count .getAll
  turns : c.turns.length + turnsLeft ps ≤ 5 * n

theorem countP_entering {f : Phase → Bool} (hf : f .entering = false) (n : Nat) :
    (List.replicate n Phase.entering).countP f = 0 := by
  rw [List.countP_replicate, hf]
  rfl

theorem flight_start (hnone : w.current = none) (hfree : w.isLocked = false) (n : Nat) :
    Flight w n (List.replicate n .entering) ⟨List.replicate n loadIndex, w, []⟩ where
  tasks := by rw [List.map_replicate]; rfl
  length := List.length_replicate
  lock := by rw [hfree, countP_entering rfl]; rfl
  unloaded _ := hnone
  published := .inl ⟨hnone, rfl⟩
  answers i h := by cases List.eq_of_mem_replicate h
  snapshot := by rw [countP_entering rfl, countP_entering rfl, hnone]; rfl
  bookmarks := by rw [countP_entering rfl]; exact Nat.le_refl 0
  saved := by rw [countP_entering rfl]; exact Nat.le_refl 0
  turns := by rw [turnsLeft_replicate]; exact Nat.le_of_eq (Nat.zero_add _)

namespace Flight

variable {n k : Nat} {ps l₁ l₂ : List Phase} {p p' : Phase} {c : Course α Nat}

/-- Who holds the lock, holds it alone, and no index is loaded. -/
theorem of_holds (h : Flight w n (l₁ ++ p :: l₂) c) (hp : p.holds = true) :
    c.state.isLocked = true ∧ c.state.current = none := by
  have hlock := h.lock
  rw [countP_split, hp] at hlock
  have hlocked : c.state.isLocked = true := by
    cases hl : c.state.isLocked with
    | true => rfl
    | false => simp [hl] at hlock
  exact ⟨hlocked, h.unloaded hlocked⟩

/-- **A turn of one of the calls.** -/
theorem step (h : Flight w n (l₁ ++ p :: l₂) c) (hs : Phase.Step p (c.upcoming fs) p' w') :
    Flight w n (l₁ ++ p' :: l₂) ⟨(l₁ ++ p' :: l₂).map (·.task), w',
      c.turns ++ [⟨k, (p.task : Task α Nat).calls, c.upcoming fs, w'⟩]⟩ := by
  have hlocked : p.holds = true → c.state.isLocked = true := fun hp => (h.of_holds hp).1
  have hnone : p.holds = true → c.state.current = none := fun hp => (h.of_holds hp).2
  have hpublished : w'.current = none ∧ w'.editions = w.editions ∨
      w'.current = some w.editions.length ∧ ∃ ix, w'.editions = w.editions ++ [⟨ix, false⟩] := by
    rcases hs.published with ⟨hcurrent, heditions⟩ | ⟨hp, hcurrent, ix, heditions⟩
    · rw [hcurrent, heditions]
      exact h.published
    · rcases h.published with ⟨_, hsame⟩ | ⟨hsome, _⟩
      · have hsame : (c.upcoming fs).editions = w.editions := hsame
        rw [hsame] at hcurrent heditions
        exact .inr ⟨hcurrent, ix, heditions⟩
      · cases hsome.symm.trans (hnone hp)
  have hanswers : ∀ i, .ended (.ok i) ∈ l₁ ++ p' :: l₂ → w'.current = some i := by
    intro i hi
    by_cases hp' : p' = .ended (.ok i)
    · exact (hp' ▸ hs).answers
    · have hbefore := h.answers i (by
        rcases List.mem_append.mp hi with hi | hi
        · exact List.mem_append_left _ hi
        · exact List.mem_append_right _ (List.mem_cons_of_mem _ ((List.mem_cons.mp hi).resolve_left (Ne.symm hp'))))
      rcases hs.published with ⟨hcurrent, _⟩ | ⟨hp, _⟩
      · exact hcurrent.trans hbefore
      · cases hbefore.symm.trans (hnone hp)
  have hlock := h.lock
  have hsnapshot := h.snapshot
  have hbookmarks := h.bookmarks
  have hsaved := h.saved
  have hturns := h.turns
  rw [turnsLeft_append, turnsLeft] at hturns
  simp only [countP_split] at hlock hsnapshot hbookmarks hsaved
  have hlength : (l₁ ++ p' :: l₂).length = n := by
    rw [← h.length, List.length_append, List.length_append, List.length_cons, List.length_cons]
  refine ⟨rfl, hlength, ?_, hs.unloaded h.unloaded, hpublished, hanswers, ?_, ?_, ?_, ?_⟩
  all_goals simp only [countP_split, Course.count_snoc, calls_task, turnsLeft_append, turnsLeft, List.length_append]
  · have hstep := hs.lock hlocked
    show _ = w'.isLocked.toNat
    change _ + c.state.isLocked.toNat = _ at hstep
    omega
  · have hstep := hs.snapshot hnone
    change _ + c.state.current.isSome.toNat = _ at hstep
    omega
  · have hstep := hs.bookmarks
    omega
  · have hstep := hs.saved
    omega
  · have hstep := hs.left
    simp only [List.length_singleton]
    omega

end Flight

variable {n : Nat} {c : Course α Nat}

/-- The phases after a turn of a task that stands in one of them. -/
theorem exists_step {ps : List Phase} {k : Nat} {t t' : Task α Nat} (ht : (ps.map (·.task))[k]? = some t)
    (hturn : t.turn w = some (t', w')) : ∃ l₁ l₂ p p', ps = l₁ ++ p :: l₂ ∧ t = p.task ∧ t' = p'.task ∧
      (ps.map (·.task)).set k t' = (l₁ ++ p' :: l₂).map (·.task) ∧ Phase.Step p w p' w' := by
  rw [List.getElem?_map, Option.map_eq_some_iff] at ht
  obtain ⟨p, hp, rfl⟩ := ht
  obtain ⟨p', rfl, hs⟩ := Phase.turn hturn
  obtain ⟨hk, hget⟩ := List.getElem?_eq_some_iff.mp hp
  obtain ⟨l₁, l₂, hps, _, hset⟩ : ∃ l₁ l₂, ps = l₁ ++ ps[k] :: l₂ ∧ l₁.length = k ∧ ps.set k p' = l₁ ++ p' :: l₂ :=
    List.exists_of_set hk
  rw [hget] at hps
  exact ⟨l₁, l₂, p, p', hps, rfl, rfl, by rw [← hset, List.map_set], hs⟩

/-- A number of calls are under way, and none of them fails without outages and with a cache that gives an index or
nothing. -/
def InFlight (w : State α) (n : Nat) (fs : Weather) (c : Course α Nat) : Prop :=
  ∃ ps, Flight w n ps c ∧ ((∀ op, w.Ready op) → (∃ found, w.cachedIndex = .ok found) → fs = Course.calm →
    SameShelf w c.state ∧ (∃ found, c.state.cachedIndex = .ok found) ∧ ps.countP (·.hasFailed) = 0)

theorem InFlight.turn {k : Nat} {t t' : Task α Nat} (h : InFlight w n fs c) (ht : c.tasks[k]? = some t)
    (hturn : t.turn (c.upcoming fs) = some (t', w')) :
    InFlight w n fs ⟨c.tasks.set k t', w', c.turns ++ [⟨k, t.calls, c.upcoming fs, w'⟩]⟩ := by
  obtain ⟨ps, h, hfair⟩ := h
  rw [h.tasks] at ht
  obtain ⟨l₁, l₂, p, p', rfl, rfl, rfl, hset, hs⟩ := exists_step ht hturn
  rw [h.tasks, hset]
  refine ⟨_, h.step hs, fun hready hcached hcalm => ?_⟩
  obtain ⟨hsame, hfound, hzero⟩ := hfair hready hcached hcalm
  subst hcalm
  have hsame : SameShelf w (c.upcoming Course.calm) := hsame
  have hp' : p'.hasFailed = false := hs.hasFailed (fun op => hsame.ready.mpr (hready op)) hfound
  refine ⟨hsame.trans hs.sameShelf, hs.cachedIndex hfound, ?_⟩
  rw [countP_split] at hzero ⊢
  rw [hp']
  exact Nat.eq_zero_of_le_zero (Nat.le_trans (Nat.le_add_right _ _) (Nat.le_of_eq hzero))

theorem inFlight_run (hnone : w.current = none) (hfree : w.isLocked = false) (n : Nat) (fs : Weather)
    (ks : List Nat) : InFlight w n fs (Course.run fs ks ⟨List.replicate n loadIndex, w, []⟩) :=
  Course.run_induction ⟨_, flight_start hnone hfree n, fun _ hc _ => ⟨.refl w, hc, countP_entering rfl n⟩⟩
    (fun _ _ _ _ _ h ht hturn => h.turn ht hturn) ks

/-! ## One loading for all -/

/-- The calls that have failed. -/
def Course.failures (c : Course α Nat) : Nat := c.tasks.countP fun t =>
  match t with
  | .fail _ => true
  | _ => false

/-- A number of calls, made while no index was loaded, share one loading. -/
structure SingleFlight (w : State α) (n : Nat) (fs : Weather) (c : Course α Nat) : Prop where
  /-- No index was published, or one, which is the current one. -/
  published : c.state.current = none ∧ c.state.editions = w.editions ∨
    c.state.current = some w.editions.length ∧ ∃ ix, c.state.editions = w.editions ++ [⟨ix, false⟩]
  /-- Every answer is the current index. -/
  answers : ∀ i, .done i ∈ c.tasks → c.state.current = some i
  /-- While nobody loads an index, the snapshot was read once for each call that failed, and once for the index. -/
  snapshot : c.state.isLocked = false → c.count .getCache = c.failures + c.state.current.isSome.toNat
  snapshot_le : c.count .getCache ≤ c.failures + 1
  bookmarks_le : c.count .getAll ≤ c.count .getCache
  saved_le : c.count .setCache ≤ c.count .getAll
  /-- A call that fails publishes no index and gives the lock back. -/
  failing : ∀ (k : Nat) (e : Fault) (w' : State α), ∀ t ∈ c.tasks[k]?, t.turn (c.upcoming fs) = some (.fail e, w') →
    w'.current = none ∧ w'.editions = w.editions ∧ w'.isLocked = false
  /-- While there is no index and nobody loads one, the next call that takes the lock is about to read the snapshot. -/
  retry : c.state.current = none → c.state.isLocked = false → ∀ k : Nat, ∀ t ∈ c.tasks[k]?, t.isAtLock = true →
    ∃ t' ∈ (c.next fs k).tasks[k]?, t'.calls .getCache = true
  /-- Some call can go on, until all have ended. -/
  progress : c.HasEnded ∨ ∃ k, (c.next fs k).turns.length = c.turns.length + 1
  turns_le : c.turns.length ≤ 5 * n
  /-- Without outages, and if what is cached gives an index or nothing, the index is loaded at once, and every call
  answers with it. -/
  undisturbed : (∀ op, w.Ready op) → (∃ found, w.cachedIndex = .ok found) → fs = Course.calm →
    c.count .getCache ≤ 1 ∧ c.count .getAll ≤ 1 ∧ c.count .setCache ≤ 1 ∧ (c.HasEnded → 0 < n → c.count .getCache = 1 ∧
      c.state.current = some w.editions.length ∧ ∀ t ∈ c.tasks, t = .done w.editions.length)

namespace Phase

theorem eq_of_task_done {p : Phase} {i : Nat} (h : (p.task : Task α Nat) = .done i) : p = ended (.ok i) := by
  cases p with
  | ended r =>
    cases r with
    | ok j =>
      cases h
      rfl
    | error e => cases h
  | _ => cases h

theorem eq_of_task_fail {p : Phase} {e : Fault} (h : (p.task : Task α Nat) = .fail e) : p = ended (.error e) := by
  cases p with
  | ended r =>
    cases r with
    | ok j => cases h
    | error e' =>
      cases h
      rfl
  | _ => cases h

theorem eq_of_isAtLock {p : Phase} (h : (p.task : Task α Nat).isAtLock = true) : p = waiting := by
  cases p with
  | waiting => rfl
  | ended r => cases r <;> cases h
  | _ => cases h

theorem holds_of_inHand {p : Phase} (h : p.inHand = true) : p.holds = true := by
  cases p <;> first | rfl | cases h

end Phase

namespace Flight

variable {ps : List Phase} (h : Flight w n ps c)
include h

theorem failures_eq : c.failures = ps.countP (·.hasFailed) := by
  rw [Course.failures, h.tasks, List.countP_map]
  refine List.countP_congr fun p _ => ?_
  cases p with
  | ended r => cases r <;> exact Iff.rfl
  | _ => exact Iff.rfl

theorem inHand_le : ps.countP (·.inHand) ≤ c.state.isLocked.toNat := by
  rw [← h.lock]
  exact List.countP_mono_left fun p _ => holds_of_inHand

theorem snapshot_le : c.count .getCache ≤ c.failures + 1 := by
  have hinHand := h.inHand_le
  rw [h.snapshot, h.failures_eq]
  cases hl : c.state.isLocked with
  | true =>
    rw [hl] at hinHand
    rw [h.unloaded hl]
    simp only [Bool.toNat_true, Option.isSome_none, Bool.toNat_false] at hinHand ⊢
    omega
  | false =>
    rw [hl] at hinHand
    have hsome := Bool.toNat_le c.state.current.isSome
    simp only [Bool.toNat_false] at hinHand
    omega

theorem snapshot_eq (hl : c.state.isLocked = false) :
    c.count .getCache = c.failures + c.state.current.isSome.toNat := by
  have hinHand := h.inHand_le
  rw [hl] at hinHand
  rw [h.snapshot, h.failures_eq]
  simp only [Bool.toNat_false] at hinHand
  omega

theorem failing {k : Nat} {e : Fault} {t : Task α Nat} (ht : c.tasks[k]? = some t)
    (hturn : t.turn (c.upcoming fs) = some (.fail e, w')) :
    w'.current = none ∧ w'.editions = w.editions ∧ w'.isLocked = false := by
  rw [h.tasks] at ht
  obtain ⟨l₁, l₂, p, p', rfl, rfl, hp', _, hs⟩ := exists_step ht hturn
  rw [Phase.eq_of_task_fail hp'.symm] at hs
  obtain ⟨hp, hcurrent, heditions, hlock⟩ := hs.failing
  have hnone := (h.of_holds hp).2
  rcases h.published with ⟨_, hsame⟩ | ⟨hsome, _⟩
  · exact ⟨hcurrent.trans hnone, heditions.trans hsame, hlock⟩
  · cases hsome.symm.trans hnone

theorem retry {k : Nat} {t : Task α Nat} (hnone : c.state.current = none) (hl : c.state.isLocked = false)
    (ht : c.tasks[k]? = some t) (hlock : t.isAtLock = true) :
    ∃ t' ∈ (c.next fs k).tasks[k]?, t'.calls .getCache = true := by
  have ht' := ht
  rw [h.tasks, List.getElem?_map, Option.map_eq_some_iff] at ht'
  obtain ⟨p, _, rfl⟩ := ht'
  obtain rfl := Phase.eq_of_isAtLock hlock
  have hnone : (c.upcoming fs).current = none := hnone
  have hl : (c.upcoming fs).isLocked = false := hl
  have hturn := turn_waiting (c.upcoming fs)
  rw [hl, hnone] at hturn
  have hk := (List.getElem?_eq_some_iff.mp ht).1
  refine ⟨Phase.reading.task, ?_, (calls_task Phase.reading .getCache).trans (by decide)⟩
  rw [Course.next_of_turn ht hturn]
  exact List.getElem?_set_self hk

theorem exists_turn {p : Phase} (hp : p ∈ ps) (hr : ∀ r, p ≠ .ended r) (hl : p = .waiting → c.state.isLocked = false) :
    ∃ k, (c.next fs k).turns.length = c.turns.length + 1 := by
  obtain ⟨k, hk⟩ := List.mem_iff_getElem?.mp hp
  have ht : c.tasks[k]? = some p.task := by rw [h.tasks, List.getElem?_map, hk]; rfl
  obtain ⟨t', w', hturn⟩ := Phase.exists_turn (w := c.upcoming fs) hr hl
  refine ⟨k, ?_⟩
  rw [Course.next_of_turn ht hturn, List.length_append]
  rfl

theorem progress : c.HasEnded ∨ ∃ k, (c.next fs k).turns.length = c.turns.length + 1 := by
  cases hl : c.state.isLocked with
  | true =>
    have hlock := h.lock
    rw [hl] at hlock
    obtain ⟨p, hp, hholds⟩ := List.countP_pos_iff.mp (Nat.lt_of_lt_of_eq Nat.zero_lt_one hlock.symm)
    refine .inr (h.exists_turn hp ?_ ?_)
    · rintro r rfl
      cases hholds
    · rintro rfl
      cases hholds
  | false =>
    by_cases hall : ∀ p ∈ ps, ∃ r, p = .ended r
    · refine .inl fun t ht => ?_
      rw [h.tasks] at ht
      obtain ⟨p, hp, rfl⟩ := List.mem_map.mp ht
      obtain ⟨r, rfl⟩ := hall p hp
      cases r <;> rfl
    · push Not at hall
      obtain ⟨p, hp, hr⟩ := hall
      exact .inr (h.exists_turn hp hr fun _ => hl)

/-- Where no call fails, all have the answer in the end. -/
theorem answered (hzero : ps.countP (·.hasFailed) = 0) (hended : c.HasEnded) {p : Phase} (hp : p ∈ ps) :
    p = .ended (.ok w.editions.length) ∧ c.state.current = some w.editions.length := by
  have hresult := hended p.task (h.tasks ▸ List.mem_map_of_mem hp)
  cases p with
  | ended r =>
    cases r with
    | error e => exact absurd rfl (List.countP_eq_zero.mp hzero _ hp)
    | ok i =>
      have hcurrent := h.answers i hp
      rcases h.published with ⟨hnone, _⟩ | ⟨hsome, _⟩
      · cases hcurrent.symm.trans hnone
      · cases hcurrent.symm.trans hsome
        exact ⟨rfl, hsome⟩
  | _ => cases hresult

theorem undisturbed (hzero : ps.countP (·.hasFailed) = 0) : c.count .getCache ≤ 1 ∧ c.count .getAll ≤ 1 ∧
    c.count .setCache ≤ 1 ∧ (c.HasEnded → 0 < n → c.count .getCache = 1 ∧
      c.state.current = some w.editions.length ∧ ∀ t ∈ c.tasks, t = .done w.editions.length) := by
  have hfailures := h.failures_eq.trans hzero
  have hsnapshot := h.snapshot_le
  have hbookmarks := h.bookmarks
  have hsaved := h.saved
  refine ⟨by omega, by omega, by omega, fun hended hn => ?_⟩
  obtain ⟨p, hp⟩ := List.exists_mem_of_length_pos (h.length.symm ▸ hn : 0 < ps.length)
  have hcurrent := (h.answered hzero hended hp).2
  have hfree : c.state.isLocked = false := by
    cases hl : c.state.isLocked with
    | false => rfl
    | true => cases hcurrent.symm.trans (h.unloaded hl)
  refine ⟨?_, hcurrent, fun t ht => ?_⟩
  · rw [h.snapshot_eq hfree, hfailures, hcurrent]
    rfl
  · rw [h.tasks] at ht
    obtain ⟨p, hp, rfl⟩ := List.mem_map.mp ht
    rw [(h.answered hzero hended hp).1]
    rfl

end Flight

/-- **Loading the index is done once for all calls that want it.**  Any number of calls are made while no index is
loaded, in turns of any order, and amid outages that come and go. -/
theorem single_flight (hnone : w.current = none) (hfree : w.isLocked = false) (n : Nat) (fs : Weather)
    (ks : List Nat) : SingleFlight w n fs (Course.run fs ks ⟨List.replicate n loadIndex, w, []⟩) := by
  obtain ⟨ps, h, hfair⟩ := inFlight_run hnone hfree n fs ks
  exact {
    published := h.published
    answers := fun i hi => by
      rw [h.tasks] at hi
      obtain ⟨p, hp, hdone⟩ := List.mem_map.mp hi
      exact h.answers i (Phase.eq_of_task_done hdone ▸ hp)
    snapshot := h.snapshot_eq
    snapshot_le := h.snapshot_le
    bookmarks_le := Nat.le_of_add_right_le h.bookmarks
    saved_le := Nat.le_of_add_right_le h.saved
    failing := fun k e w' t ht hturn => h.failing ht hturn
    retry := fun hc hl k t ht hlock => h.retry hc hl ht hlock
    progress := h.progress
    turns_le := Nat.le_of_add_right_le h.turns
    undisturbed := fun hready hcached hcalm => h.undisturbed (hfair hready hcached hcalm).2.2 }

/-- Two calls take turns: one loads the index and the other waits for it.  If the cache is out of order while the one
reads it, the other loads the index. -/
theorem single_flight_sample :
    let w : State Unit := {}
    let outage : Weather := fun i => if i = 3 then some [(.getCache, "down")] else some []
    let start : Course Unit Nat := ⟨List.replicate 2 loadIndex, w, []⟩
    let c := start.run Course.calm [0, 1, 0, 1, 0, 0, 0, 1]
    let c' := start.run outage [0, 1, 0, 0, 1, 1, 1, 1]
    w.current = none ∧ w.isLocked = false ∧ SingleFlight w 2 Course.calm c ∧ SingleFlight w 2 outage c' ∧
      (∀ op, w.Ready op) ∧ c.HasEnded ∧ c.count .getCache = 1 ∧ c.count .getAll = 1 ∧ c.count .setCache = 1 ∧
      c'.HasEnded ∧ c'.failures = 1 ∧ c'.count .getCache = 2 ∧ c'.state.current = some 0 := by
  intro w outage start c c'
  refine ⟨rfl, rfl, single_flight rfl rfl 2 _ _, single_flight rfl rfl 2 _ _, fun _ => ⟨rfl, rfl⟩, ?_⟩
  decide +kernel

/-- Two calls fail without an outage, and no index is loaded, where a thousand brackets stand in the cache. -/
theorem not_single_flight_brackets :
    let w : State Unit :=
      { store := { cache := ⟨[⟨indexKey, .ofText usualRoom manyBrackets, Timestamp.epoch, none⟩]⟩ } }
    let c := Course.run Course.calm [0, 1, 0, 0, 1, 1] ⟨[loadIndex, loadIndex], w, []⟩
    w.current = none ∧ w.isLocked = false ∧ (∀ op, w.Ready op) ∧
      c.tasks = [.fail .tooDeep, .fail .tooDeep] ∧ c.state.current = none := by
  rw [ofText_manyBrackets]
  exact ⟨rfl, rfl, fun _ => ⟨rfl, rfl⟩, rfl, rfl⟩

end Shelfmark.Engine
