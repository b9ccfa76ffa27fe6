import Shelfmark.Proofs.Engine.Answers

/-!
# Runs amid outages

While a task runs, operations of the store may go out of order and come back in front of any of its calls
(`Task.runAmid`).  Where nothing changes, this is how a task runs by itself (`Task.runAmid_none`).

The index for a search is at hand in one of four ways (`AtHand`, `indexForSearch_amid`), and there is none exactly if it
is not in memory, and cannot be restored or built with the operations that are in order when each is called
(`LoadableFrom`).
-/

namespace Shelfmark.Engine

open Search

variable {α β γ : Type} {w : State α} {n : Nat}

/-! ## Outages -/

/-- Operations of the store that are out of order, with what they say. -/
abbrev Outages := List (StoreOperation × String)

/-- The outages from each call on; nothing where they stay as they are. -/
abbrev Weather := Nat → Option Outages

/-- The state with the outages that a change brings. -/
def State.under (w : State α) (change : Option Outages) : State α := { w with faults := change.getD w.faults }

variable {fs : Weather}

namespace Task

/-- Runs a task from beginning to end while the outages change; the calls are counted from a number on. -/
def runAmid (fs : Weather) : Task α β → Nat → State α → Except Fault β × Nat × State α
  | done b, n, w => (.ok b, n, w)
  | fail e, n, w => (.error e, n, w)
  | act f k, n, w => (k (f w).1).runAmid fs n (f w).2
  | call f k, n, w => (k (f (w.under (fs n))).1).runAmid fs (n + 1) (f (w.under (fs n))).2
  | acquire k, n, w => k.runAmid fs n w.lock
  | release k, n, w => k.runAmid fs n w.unlock

/-- **A task whose outages never change runs by itself.** -/
theorem runAmid_none (t : Task α β) (n : Nat) (w : State α) :
    ((t.runAmid (fun _ => none) n w).1, (t.runAmid (fun _ => none) n w).2.2) = t.run w := by
  induction t generalizing n w with
  | done b => rfl
  | fail e => rfl
  | act f k ih => exact ih _ _ _
  | call f k ih => exact ih _ _ _
  | acquire k ih => exact ih _ _
  | release k ih => exact ih _ _

/-- The run of a task after another one that ended in some way. -/
def followAmid (fs : Weather) (r : Except Fault β × Nat × State α) (g : β → Task α γ) :
    Except Fault γ × Nat × State α :=
  match r with
  | (.ok b, n, w) => (g b).runAmid fs n w
  | (.error e, n, w) => (.error e, n, w)

@[simp] theorem followAmid_ok (b : β) (g : β → Task α γ) :
    followAmid fs (.ok b, n, w) g = (g b).runAmid fs n w := rfl

@[simp] theorem followAmid_error (e : Fault) (g : β → Task α γ) :
    followAmid fs (.error e, n, w) g = (.error e, n, w) := rfl

@[simp] theorem runAmid_pure (b : β) : (pure b : Task α β).runAmid fs n w = (.ok b, n, w) := rfl

@[simp] theorem runAmid_look (f : State α → β) : (look f).runAmid fs n w = (.ok (f w), n, w) := rfl

@[simp] theorem runAmid_act (f : State α → β × State α) :
    (act f done).runAmid fs n w = (.ok (f w).1, n, (f w).2) := rfl

@[simp] theorem runAmid_ofExcept (r : Except Fault β) : (ofExcept r).runAmid fs n w = (r, n, w) := by
  cases r <;> rfl

/-- A task with a continuation runs as the task and then as the continuation. -/
theorem runAmid_bind' (t : Task α β) (g : β → Task α γ) (n : Nat) (w : State α) :
    (t.bind g).runAmid fs n w = followAmid fs (t.runAmid fs n w) g := by
  induction t generalizing n w with
  | done b => rfl
  | fail e => rfl
  | act f k ih => exact ih _ _ _
  | call f k ih => exact ih _ _ _
  | acquire k ih => exact ih _ _
  | release k ih => exact ih _ _

@[simp] theorem runAmid_bind (t : Task α β) (g : β → Task α γ) (n : Nat) (w : State α) :
    (t >>= g).runAmid fs n w = followAmid fs (t.runAmid fs n w) g := runAmid_bind' t g n w

@[simp] theorem runAmid_attempt (t : Task α β) (n : Nat) (w : State α) :
    t.attempt.runAmid fs n w = (.ok (t.runAmid fs n w).1, (t.runAmid fs n w).2) := by
  induction t generalizing n w with
  | done b => rfl
  | fail e => rfl
  | act f k ih => exact ih _ _ _
  | call f k ih => exact ih _ _ _
  | acquire k ih => exact ih _ _
  | release k ih => exact ih _ _

@[simp] theorem runAmid_locked (t : Task α β) (n : Nat) (w : State α) : (locked t).runAmid fs n w =
    ((t.runAmid fs n w.lock).1, (t.runAmid fs n w.lock).2.1, (t.runAmid fs n w.lock).2.2.unlock) := by
  show (t.attempt.bind fun r => release (ofExcept r)).runAmid fs n w.lock = _
  rw [runAmid_bind', runAmid_attempt]
  show (ofExcept _).runAmid fs _ _ = _
  rw [runAmid_ofExcept]

end Task

/-! ## Calls of the store -/

theorem runAmid_store {op : StoreOperation} (h : (w.under (fs n)).Ready op) (f : State α → Except Fault β × State α) :
    (Task.store op f).runAmid fs n w = ((f (w.under (fs n))).1, n + 1, (f (w.under (fs n))).2) := by
  show (Task.ofExcept _).runAmid fs _ _ = _
  simp only [h.1, h.2, if_true, Task.runAmid_ofExcept]

/-- A call that is not ready fails in one way, whatever it would do. -/
theorem runAmid_store_not_ready {op : StoreOperation} (h : ¬(w.under (fs n)).Ready op) : ∃ e, e.isRefusal = false ∧
    ∀ {β : Type} (f : State α → Except Fault β × State α),
      (Task.store op f).runAmid fs n w = (.error e, n + 1, w.under (fs n)) := by
  obtain ⟨e, he, hrun⟩ := run_store_not_ready h
  refine ⟨e, he, fun {β} f => ?_⟩
  have hcall : (Task.ofExcept _).run _ = _ := hrun f
  rw [Task.run_ofExcept] at hcall
  show (Task.ofExcept _).runAmid fs _ _ = _
  rw [Task.runAmid_ofExcept, congrArg Prod.fst hcall, congrArg Prod.snd hcall]

theorem runAmid_allBookmarks (h : (w.under (fs n)).Ready .getAll) :
    allBookmarks.runAmid fs n w = (.ok w.store.shelf.all, n + 1, w.under (fs n)) := by
  rw [allBookmarks, runAmid_store h, mapM_reread]
  rfl

/-! ## Loading the index -/

/-- The index can be loaded from a call on: it is in memory, or the cache can be read and has a snapshot that can be
used, or what it has is taken for none and the index can be built from the store and saved. -/
def LoadableFrom (fs : Weather) (n : Nat) (w : State α) : Prop :=
  let reading := w.under (fs n)
  let building := reading.under (fs (n + 1))
  let saving := building.under (fs (n + 2))
  w.current ≠ none ∨ reading.Ready .getCache ∧
    ((∃ ix, w.cachedIndex = .ok (some ix)) ∨
      w.cachedIndex = .ok none ∧ building.Ready .getAll ∧ saving.Ready .setCache)

/-- The search of the current index is out of order. -/
def State.IsBroken (w : State α) : Prop := ∃ i ∈ w.current, (w.edition i).isBroken = true

/-- The index that a search asks if it can be loaded: the one in memory, or else the one in the cache, or else that of
all bookmarks. -/
def State.nextIndex (w : State α) : Index :=
  match w.currentIndex?, w.cachedIndex with
  | some ix, _ => ix
  | none, .ok (some ix) => ix
  | none, _ => w.builtIndex

/-- The index at hand for a search, from a call on. -/
inductive AtHand (fs : Weather) (n : Nat) (w : State α) : IndexAccess → Prop
  /-- It is in memory or could be loaded. -/
  | ready (hl : LoadableFrom fs n w) (hb : ¬w.IsBroken) : AtHand fs n w (.ready w.nextIndex)
  /-- It is in memory, but its search is out of order. -/
  | broken (hl : LoadableFrom fs n w) (hb : w.IsBroken) : AtHand fs n w (.failing Index.isSearchable)
  /-- It could not be loaded. -/
  | missing (hl : ¬LoadableFrom fs n w) : AtHand fs n w .missing

theorem runAmid_loadSnapshot (h : (w.under (fs n)).Ready .getCache) : loadSnapshot.runAmid fs n w =
    (w.cachedIndex, n + 1, (w.under (fs n)).putCache w.indexLookup.2) := by
  simp only [loadSnapshot, Task.runAmid_bind, Task.runAmid_attempt, cached, runAmid_store h,
    Task.followAmid_ok, State.cachedIndex, State.indexLookup, State.under]
  cases (w.store.cache.get w.now indexKey).1 with
  | ok v => exact Task.runAmid_ofExcept _
  | error e =>
    simp only [indexFound]
    cases e.isRefusal <;> rfl

theorem runAmid_loadSnapshot_not_ready (h : ¬(w.under (fs n)).Ready .getCache) :
    ∃ e, loadSnapshot.runAmid fs n w = (.error e, n + 1, w.under (fs n)) := by
  obtain ⟨e, he, hrun⟩ := runAmid_store_not_ready h
  refine ⟨e, ?_⟩
  simp only [loadSnapshot, Task.runAmid_bind, Task.runAmid_attempt, cached, hrun,
    Task.followAmid_ok, he, Bool.false_eq_true, if_false]
  rfl

/-- The index is built and saved by two calls that both must be ready. -/
theorem runAmid_buildIndex (fs : Weather) (n : Nat) (w : State α) :
    ((w.under (fs n)).Ready .getAll ∧ ((w.under (fs n)).under (fs (n + 1))).Ready .setCache ∧
        (buildIndex.runAmid fs n w).1 = .ok w.builtIndex) ∨
      ¬((w.under (fs n)).Ready .getAll ∧ ((w.under (fs n)).under (fs (n + 1))).Ready .setCache) ∧
        ∃ e, (buildIndex.runAmid fs n w).1 = .error e := by
  simp only [buildIndex, Task.runAmid_bind]
  by_cases ha : (w.under (fs n)).Ready .getAll
  · simp only [runAmid_allBookmarks ha, Task.followAmid_ok, saveIndex, Task.runAmid_bind, Task.runAmid_look, cacheValue]
    by_cases hs : ((w.under (fs n)).under (fs (n + 1))).Ready .setCache
    · have hroom := checkEntry_indexEntry w.host (Index.ofBookmarks w.store.shelf.all) (w.under (fs n)).now
      have hhost : ((w.under (fs n)).under (fs (n + 1))).host = w.host := rfl
      simp only [runAmid_store hs, hhost, hroom, Task.followAmid_ok, Task.runAmid_pure]
      exact .inl ⟨ha, hs, rfl⟩
    · obtain ⟨e, _, hsave⟩ := runAmid_store_not_ready hs
      exact .inr ⟨fun h => hs h.2, e, by simp only [hsave, Task.followAmid_error]⟩
  · obtain ⟨e, _, hread⟩ := runAmid_store_not_ready ha
    exact .inr ⟨fun h => ha h.1, e, by simp only [allBookmarks, hread, Task.followAmid_error]⟩

theorem accessAfter_publish (w : State α) (ix : Index) :
    accessAfter (.ok (w.publish ix).1, (w.publish ix).2) = .ready ix := by
  have hedition : (w.publish ix).2.edition (w.publish ix).1 = ⟨ix, false⟩ := edition_withIndex w ix
  simp [accessAfter, hedition]

theorem accessAfter_unlock (r : Except Fault Nat) (w : State α) : accessAfter (r, w.unlock) = accessAfter (r, w) := by
  cases r <;> rfl

/-- What is at hand after an index that was not in memory was loaded under the lock, or was not. -/
theorem atHand_loadAnew (h : w.current = none) :
    AtHand fs n w (accessAfter ((loadAnew.runAmid fs n w.lock).1, (loadAnew.runAmid fs n w.lock).2.2)) := by
  have hn : w.lock.current = none := h
  have hcurrent : w.currentIndex? = none := by rw [State.currentIndex?, h]; rfl
  have hb : ¬w.IsBroken := by
    rintro ⟨i, hi, _⟩
    rw [h] at hi
    cases hi
  have hloadable : LoadableFrom fs n w ↔ (w.under (fs n)).Ready .getCache ∧ ((∃ ix, w.cachedIndex = .ok (some ix)) ∨
      w.cachedIndex = .ok none ∧ ((w.under (fs n)).under (fs (n + 1))).Ready .getAll ∧
        (((w.under (fs n)).under (fs (n + 1))).under (fs (n + 2))).Ready .setCache) := by
    simp only [LoadableFrom, h, ne_eq, not_true_eq_false, false_or]
  simp only [loadAnew, Task.runAmid_bind, Task.runAmid_look, Task.followAmid_ok, hn]
  by_cases hc : (w.under (fs n)).Ready .getCache
  · have hlock : w.lock.cachedIndex = w.cachedIndex := rfl
    rw [runAmid_loadSnapshot (w := w.lock) hc, hlock]
    rcases hs : w.cachedIndex with e | _ | ix
    · refine .missing fun hl => ?_
      rcases (hloadable.mp hl).2 with ⟨ix, hix⟩ | ⟨hnone, _⟩
      · cases hs.symm.trans hix
      · cases hs.symm.trans hnone
    · have hbuild := runAmid_buildIndex fs (n + 1) ((w.lock.under (fs n)).putCache w.lock.indexLookup.2)
      have hbuilt : ((w.lock.under (fs n)).putCache w.lock.indexLookup.2).builtIndex = w.nextIndex := by
        rw [State.nextIndex, hcurrent, hs]
        rfl
      simp only [Task.followAmid_ok, Task.runAmid_bind]
      generalize buildIndex.runAmid fs (n + 1) ((w.lock.under (fs n)).putCache w.lock.indexLookup.2) = r at hbuild ⊢
      obtain ⟨r, n', v⟩ := r
      rcases hbuild with ⟨ha, hset, hr⟩ | ⟨hnot, e, hr⟩
      · obtain rfl : r = .ok _ := hr
        rw [Task.followAmid_ok, Task.runAmid_act, accessAfter_publish, hbuilt]
        exact .ready (hloadable.mpr ⟨hc, .inr ⟨hs, ha, hset⟩⟩) hb
      · obtain rfl : r = .error e := hr
        refine .missing fun hl => ?_
        have hno : ¬∃ ix, w.cachedIndex = .ok (some ix) := by
          rintro ⟨ix, hix⟩
          cases hs.symm.trans hix
        exact hnot ((hloadable.mp hl).2.resolve_left hno).2
    · have hl : LoadableFrom fs n w := hloadable.mpr ⟨hc, .inl ⟨ix, hs⟩⟩
      have hnext : ix = w.nextIndex := by rw [State.nextIndex, hcurrent, hs]
      simp only [Task.followAmid_ok, Task.runAmid_pure, Task.runAmid_act, Task.runAmid_bind, accessAfter_publish, hnext]
      exact .ready hl hb
  · obtain ⟨e, hsnapshot⟩ := runAmid_loadSnapshot_not_ready (w := w.lock) hc
    rw [hsnapshot]
    exact .missing fun hl => hc (hloadable.mp hl).1

theorem atHand_loadIndex (fs : Weather) (n : Nat) (w : State α) :
    AtHand fs n w (accessAfter ((loadIndex.runAmid fs n w).1, (loadIndex.runAmid fs n w).2.2)) := by
  cases h : w.current with
  | none =>
    have hrun : loadIndex.runAmid fs n w = ((loadAnew.runAmid fs n w.lock).1, (loadAnew.runAmid fs n w.lock).2.1,
        (loadAnew.runAmid fs n w.lock).2.2.unlock) := by
      simp only [loadIndex, Task.runAmid_bind, Task.runAmid_look, Task.followAmid_ok, h, Task.runAmid_locked]
      rfl
    rw [hrun, accessAfter_unlock]
    exact atHand_loadAnew h
  | some i =>
    have hrun : loadIndex.runAmid fs n w = (.ok i, n, w) := by
      simp only [loadIndex, Task.runAmid_bind, Task.runAmid_look, Task.followAmid_ok, h, Task.runAmid_pure]
    have hl : LoadableFrom fs n w := .inl (by simp [h])
    rw [hrun, accessAfter]
    split
    · exact .broken hl ⟨i, h, ‹_›⟩
    · have hnext : (w.edition i).index = w.nextIndex := by rw [State.nextIndex, State.currentIndex?, h]; rfl
      rw [hnext]
      refine .ready hl ?_
      rintro ⟨j, hj, hb⟩
      cases h.symm.trans hj
      exact absurd hb ‹_›

/-- **The index for a search is at hand in one of these ways.** -/
theorem indexForSearch_amid (fs : Weather) (n : Nat) (w : State α) : ∃ access n' w',
    indexForSearch.runAmid fs n w = (.ok access, n', w') ∧ AtHand fs n w access := by
  have hhand := atHand_loadIndex fs n w
  simp only [indexForSearch, Task.runAmid_bind, Task.runAmid_attempt]
  generalize loadIndex.runAmid fs n w = r at hhand
  obtain ⟨_ | i, n', w'⟩ := r
  · exact ⟨_, _, _, rfl, hhand⟩
  · exact ⟨_, _, _, rfl, hhand⟩

end Shelfmark.Engine
