import Shelfmark.Proofs.Engine.Reports

/-!
# Reports of changes, turn by turn

The stages that a report of a change goes through (`Stage`), and what it does at each of them (`Step`).  A task that
stands at a stage fails in its turn, or it makes such a step (`Stands.step`).
-/

namespace Shelfmark.Engine

variable {α β γ : Type} {w : State α} {ix : Index} {c : IndexChange} {i : Nat} {t : Task α Unit}

/-! ## Stretches under the lock -/

namespace Task

/-- What is left of a stretch under the lock, and what comes after it. -/
def under (t : Task α γ) (g : γ → Task α β) : Task α β := t.attempt.bind fun r => release ((ofExcept r).bind g)

theorem turn_locked (t : Task α γ) (g : γ → Task α β) (w : State α) :
    ((locked t).bind g).turn w = if w.isLocked then none else some ((under t g).settle w.lock) := by
  show (if w.isLocked then none else some _) = _
  rw [show (t.attempt.bind fun r => release (ofExcept r)).bind g = under t g from bind_assoc _ _ _]

theorem turn_store (op : StoreOperation) (f : State α → Except Fault γ × State α) (g : γ → Task α β) (w : State α) :
    ((store op f).bind g).turn w =
      some (((ofExcept ((store op f).run w).1).bind g).settle ((store op f).run w).2) := by
  rw [show (store op f).run w = _ from run_ofExcept _ _]
  rfl

theorem turn_under_store {δ : Type} (op : StoreOperation) (f : State α → Except Fault δ × State α) (h : δ → Task α γ)
    (g : γ → Task α β) (w : State α) : (under ((store op f).bind h) g).turn w =
      some ((under ((ofExcept ((store op f).run w).1).bind h) g).settle ((store op f).run w).2) := by
  rw [show (store op f).run w = _ from run_ofExcept _ _]
  rfl

end Task

/-! ## What a turn leads to -/

/-- The task has not ended, and each of its turns makes it fail or is of some kind. -/
def Leads (t : Task α Unit) (R : State α → Task α Unit → State α → Prop) : Prop :=
  t ≠ .done () ∧ ∀ w r, t.turn w = some r → (∃ e, r.1 = .fail e) ∨ R w r.1 r.2

/-- The turn of a task that stands before a call of the store. -/
theorem leads_of_turn {op : StoreOperation} {f : State α → Except Fault γ × State α}
    {R : State α → Task α Unit → State α → Prop} (T : Except Fault γ × State α → Task α Unit × State α)
    (hn : t ≠ .done ()) (hturn : ∀ w, t.turn w = some (T ((Task.store op f).run w)))
    (hfail : ∀ e w, ∃ e', (T (.error e, w)).1 = .fail e')
    (h : ∀ w, w.Ready op → R w (T (f w)).1 (T (f w)).2) : Leads t R := by
  refine ⟨hn, fun w r ht => ?_⟩
  rw [hturn] at ht
  cases ht
  by_cases hr : w.Ready op
  · rw [run_store hr]
    exact .inr (h w hr)
  · obtain ⟨e, _, hrun⟩ := run_store_not_ready hr
    rw [hrun]
    exact .inl (hfail e w)

theorem leads_store {op : StoreOperation} {f : State α → Except Fault γ × State α} {g : γ → Task α Unit}
    {R : State α → Task α Unit → State α → Prop}
    (h : ∀ w, w.Ready op → R w (((Task.ofExcept (f w).1).bind g).settle (f w).2).1
      (((Task.ofExcept (f w).1).bind g).settle (f w).2).2) : Leads ((Task.store op f).bind g) R :=
  leads_of_turn (fun r => ((Task.ofExcept r.1).bind g).settle r.2) nofun (Task.turn_store op f g)
    (fun e _ => ⟨e, rfl⟩) h

theorem leads_under_store {δ : Type} {op : StoreOperation} {f : State α → Except Fault δ × State α}
    {h : δ → Task α γ} {g : γ → Task α Unit} {R : State α → Task α Unit → State α → Prop}
    (hR : ∀ w, w.Ready op → R w ((Task.under ((Task.ofExcept (f w).1).bind h) g).settle (f w).2).1
      ((Task.under ((Task.ofExcept (f w).1).bind h) g).settle (f w).2).2) :
    Leads (Task.under ((Task.store op f).bind h) g) R :=
  leads_of_turn (fun r => (Task.under ((Task.ofExcept r.1).bind h) g).settle r.2) nofun (Task.turn_under_store op f h g)
    (fun e _ => ⟨e, rfl⟩) hR

theorem leads_locked {s : Task α γ} {g : γ → Task α Unit} {R : State α → Task α Unit → State α → Prop}
    (h : ∀ w, w.isLocked = false → R w ((Task.under s g).settle w.lock).1 ((Task.under s g).settle w.lock).2) :
    Leads ((Task.locked s).bind g) R := by
  refine ⟨nofun, fun w r ht => ?_⟩
  rw [Task.turn_locked] at ht
  split at ht
  · cases ht
  · rename_i hl
    cases ht
    exact .inr (h w (by simpa using hl))

/-- What is known of similar bookmarks is forgotten next, under the lock, and then the task ends. -/
def Clears (t : Task α Unit) : Prop :=
  Leads t fun w t' w' => t' = .done () ∧ w' = w.withCache (w.store.cache.clear similarityPattern)

/-- The lock is taken next to forget what is known of similar bookmarks. -/
def Forgets (t : Task α Unit) : Prop := Leads t fun w t' w' => w.isLocked = false ∧ w' = w.lock ∧ Clears t'

/-- The state in which the snapshot of an index is cached, as it was at some time, and the lock free. -/
def State.keeping (w : State α) (ix : Index) (now : Timestamp) : State α :=
  w.withCache (w.store.cache.set w.now indexKey (indexEntry ix now) none)

/-- The snapshot of an index is cached next, under the lock. -/
def Saves (ix : Index) (t : Task α Unit) : Prop :=
  Leads t fun w t' w' => (∃ now, w' = w.keeping ix now) ∧ Forgets t'

/-- The snapshot of an index is cached next, under the lock, and the index becomes the current one. -/
def Publishes (ix : Index) (t : Task α Unit) : Prop :=
  Leads t fun w t' w' => (∃ now, w' = (w.keeping ix now).withIndex ix) ∧ Forgets t'

/-- The bookmarks of the store are read next, under the lock, for a new index. -/
def Reads (t : Task α Unit) : Prop := Leads t fun w t' w' => w' = w ∧ Publishes w.builtIndex t'

theorem clears_under (k : Nat → Task α Unit) (hk : ∀ n, k n = .done ()) :
    Clears (Task.under (clearCached similarityPattern) k) := by
  rw [← Task.bind_done (clearCached similarityPattern)]
  refine leads_under_store fun w _ => ?_
  simp only [refuses_similarity, Bool.false_eq_true, if_false]
  show ((k _).settle _).1 = _ ∧ ((k _).settle _).2 = _
  rw [hk]
  exact ⟨rfl, rfl⟩

theorem forgets_forgetSimilar (k : Unit → Task α Unit) (hk : k () = .done ()) : Forgets (forgetSimilar.bind k) := by
  rw [show forgetSimilar.bind k = (Task.locked (clearCached similarityPattern)).bind fun _ => k () from
    Task.bind_assoc _ _ _]
  exact leads_locked fun w hl => ⟨hl, rfl, clears_under _ fun _ => hk⟩

theorem saves_under (ix : Index) (now : Timestamp) (h : Unit → Task α γ) (g : γ → Task α Unit) {b : γ}
    (hh : h () = .done b) (hg : ∀ w, (g b).settle w = (g b, w)) (hf : Forgets (g b)) :
    Saves ix (Task.under ((cacheValue indexKey (indexEntry ix now) none).bind h) g) := by
  refine leads_under_store fun w _ => ?_
  simp only [checkEntry_indexEntry]
  show (∃ now', ((Task.under (h ()) g).settle _).2 = _) ∧ Forgets ((Task.under (h ()) g).settle _).1
  rw [hh]
  show (∃ now', ((g b).settle _).2 = _) ∧ Forgets ((g b).settle _).1
  rw [hg]
  exact ⟨⟨now, rfl⟩, hf⟩

theorem publishes_under (ix : Index) (now : Timestamp) (h : Unit → Task α Index) (g : Index → Task α Unit)
    (hh : h () = (Task.act (·.publish ix) Task.done).bind fun _ => .done ix)
    (hg : ∀ w, (g ix).settle w = (g ix, w)) (hf : Forgets (g ix)) :
    Publishes ix (Task.under ((cacheValue indexKey (indexEntry ix now) none).bind h) g) := by
  refine leads_under_store fun w _ => ?_
  simp only [checkEntry_indexEntry]
  show (∃ now', ((Task.under (h ()) g).settle _).2 = _) ∧ Forgets ((Task.under (h ()) g).settle _).1
  rw [hh]
  show (∃ now', ((g ix).settle _).2 = _) ∧ Forgets ((g ix).settle _).1
  rw [hg]
  exact ⟨⟨now, rfl⟩, hf⟩

/-- The bookmarks of the store become the new index. -/
theorem reads_under (h : Index → Task α Index) (g : Index → Task α Unit)
    (hh : ∀ ix, h ix = (Task.act (·.publish ix) Task.done).bind fun _ => .done ix)
    (hg : ∀ ix w, (g ix).settle w = (g ix, w)) (hf : ∀ ix, Forgets (g ix)) :
    Reads (Task.under (buildIndex.bind h) g) := by
  rw [show buildIndex.bind h = allBookmarks.bind fun bs => (saveIndex (Index.ofBookmarks bs)).bind fun _ =>
    h (Index.ofBookmarks bs) by
      simp only [buildIndex, bind, pure, Task.bind_assoc]
      rfl]
  refine leads_under_store fun w _ => ?_
  rw [mapM_reread]
  exact ⟨rfl, publishes_under w.builtIndex w.now (fun _ => h w.builtIndex) g (hh _) (hg _) (hf _)⟩

/-! ## Turns of reports -/

/-- The index with a number is changed, and its snapshot is cached next. -/
theorem turn_changeFrom {f : Index → Index × Except Fault Unit} (hlt : i < w.editions.length)
    {r : Task α Unit × State α} (h : (changeFrom i f).turn w = some r) :
    (∃ e, r.1 = .fail e) ∨ w.isLocked = false ∧ r.2 = w.lock.setEdition i (f (w.edition i).index).1 ∧
      Saves (f (w.edition i).index).1 r.1 := by
  have hrest : (changeFrom i f : Task α Unit) =
      (Task.locked (changeEdition i f >>= fun _ => saveEdition i)).bind fun _ => forgetSimilar := rfl
  rw [hrest, Task.turn_locked] at h
  split at h
  · cases h
  rename_i hl
  cases h
  have hsettle : (Task.under (changeEdition i f >>= fun _ => saveEdition i) fun _ => forgetSimilar).settle w.lock =
      (Task.under ((Task.ofExcept (f (w.edition i).index).2).bind fun _ => saveEdition i) fun _ => forgetSimilar).settle
        (w.lock.setEdition i (f (w.edition i).index).1) := rfl
  rw [hsettle]
  cases (f (w.edition i).index).2 with
  | error e => exact .inl ⟨e, rfl⟩
  | ok _ =>
    refine .inr ⟨by simpa using hl, rfl, ?_⟩
    show Saves _ (Task.under (cacheValue indexKey (indexEntry ((w.lock.setEdition i _).edition i).index w.now) none) _)
    rw [edition_setEdition (w := w.lock) hlt, ← Task.bind_done (cacheValue _ _ _)]
    refine saves_under _ _ _ _ rfl (fun _ => rfl) ?_
    rw [← Task.bind_done forgetSimilar]
    exact forgets_forgetSimilar _ rfl

theorem setEdition_self (w : State α) (i : Nat) : w.setEdition i (w.edition i).index = w := by
  have hmodify : (w.editions.modify i fun e => { e with index := (w.edition i).index }) = w.editions := by
    refine List.ext_getElem? fun j => ?_
    rw [List.getElem?_modify]
    by_cases hj : i = j
    · subst hj
      cases he : w.editions[i]? with
      | none => rfl
      | some e => simp [State.edition, he]
    · simp [hj]
  rw [State.setEdition, hmodify]

theorem settle_withdraw (w : State α) (i : Nat) (id : String) (k : Bool → Task α Unit) :
    (Task.under (withdraw i id) k).settle w = (Task.under (if (w.edition i).index.contains id
      then (saveEdition i).bind fun _ => .done ((w.edition i).index.contains id)
      else .done ((w.edition i).index.contains id)) k).settle (w.setEdition i ((w.edition i).index.remove id)) := rfl

/-- A document is removed, and the snapshot is cached next; nothing happens if it is not there. -/
theorem turn_removeFrom {id : String} (hlt : i < w.editions.length) {r : Task α Unit × State α}
    (h : ((removeFrom i id).bind fun _ => .done ()).turn w = some r) : w.isLocked = false ∧
      (r.2 = w.lock.setEdition i ((w.edition i).index.remove id) ∧ Saves ((w.edition i).index.remove id) r.1 ∨
        r = (.done (), w) ∧ (w.edition i).index.remove id = (w.edition i).index) := by
  rw [show (removeFrom i id).bind (fun _ => .done ()) = (Task.locked (withdraw i id)).bind fun removed =>
    (if removed then forgetSimilar.bind fun _ => .done removed else .done removed).bind fun _ => .done () from
    Task.bind_assoc _ _ _, Task.turn_locked] at h
  split at h
  · cases h
  rename_i hl
  have hl : w.isLocked = false := by simpa using hl
  cases h
  refine ⟨hl, ?_⟩
  rw [settle_withdraw, State.lock_edition]
  cases hcontains : (w.edition i).index.contains id with
  | true =>
    refine .inl ⟨rfl, ?_⟩
    show Saves _ (Task.under ((cacheValue indexKey (indexEntry ((w.lock.setEdition i _).edition i).index w.now)
      none).bind fun _ => .done true) _)
    rw [edition_setEdition (w := w.lock) hlt]
    refine saves_under _ _ _ _ rfl (fun _ => rfl) ?_
    rw [if_pos rfl, Task.bind_assoc]
    exact forgets_forgetSimilar _ rfl
  | false =>
    have hsame : (w.edition i).index.remove id = (w.edition i).index :=
      Index.remove_of_not_mem fun hmem => by simp [Index.contains_iff.mpr hmem] at hcontains
    have hself : w.lock.setEdition i (w.edition i).index = w.lock := setEdition_self w.lock i
    have hfree : w.lock.unlock = w := by
      obtain ⟨_, _, _, _, _, _, locked⟩ := w
      cases hl
      rfl
    refine .inr ⟨?_, hsame⟩
    rw [hsame, hself, ← hfree]
    rfl

theorem leads_rebuild : Leads (rebuildIndex.bind fun _ => .done ()) fun (w : State α) t' w' =>
    w.isLocked = false ∧ w' = w.lock ∧ Reads t' := by
  rw [show rebuildIndex.bind (fun _ => .done ()) = (Task.locked (buildIndex.bind fun ix =>
    (Task.act (·.publish ix) Task.done).bind fun _ => .done ix)).bind fun ix =>
      (forgetSimilar.bind fun _ => .done ix.size).bind fun _ => .done () from Task.bind_assoc _ _ _]
  refine leads_locked fun w hl => ⟨hl, rfl, ?_⟩
  refine reads_under _ _ (fun _ => rfl) (fun _ _ => rfl) fun ix => ?_
  rw [Task.bind_assoc]
  exact forgets_forgetSimilar _ rfl

/-- The change of the store is made next, and then the engine is called at some time. -/
theorem leads_write (x : Write) (c : IndexChange) : Leads (x.call.bind fun _ => c.call) fun (w : State α) t' w' =>
    t' = c.call ∧ w' = x.make w := by
  cases x with
  | keep b =>
    show Leads (((keepAll [b]).bind fun _ => .done ()).bind fun _ => c.call) _
    rw [Task.bind_assoc]
    exact leads_store fun w _ => ⟨rfl, rfl⟩
  | delete id =>
    show Leads (((deleteBookmark id).bind fun _ => .done ()).bind fun _ => c.call) _
    rw [Task.bind_assoc]
    exact leads_store fun w _ => ⟨rfl, rfl⟩

theorem settle_heed (op : StoreOperation) (g : Unit → Task α Unit) (w : State α) :
    ((heed op).bind g).settle w = match w.faultOf op with
      | some message => (.fail (.storeDown message), w)
      | none => (g ()).settle w := by
  show (((match w.faultOf op with | some _ => _ | none => _ : Task α Unit)).bind g).settle w = _
  cases w.faultOf op <;> rfl

/-- The change of the store is made next, or after it was seen that the operation is in order. -/
theorem turn_write {x : Write} {r : Task α Unit × State α} (h : (x.task.bind fun _ => c.call).turn w = some r) :
    (∃ e, r.1 = .fail e) ∨ r = (x.call.bind fun _ => c.call, w) ∨ r.1 = c.call ∧ r.2 = x.make w := by
  cases x with
  | keep b =>
    have hturn : (((Write.keep b).task : Task α Unit).bind fun _ => c.call).turn w =
        some (((heed .upsertOne).bind fun _ => (Write.keep b).call.bind fun _ => c.call).settle w) := by
      rw [← Task.bind_assoc]
      rfl
    rw [hturn, settle_heed] at h
    cases h
    cases w.faultOf .upsertOne with
    | some message => exact .inl ⟨_, rfl⟩
    | none => exact .inr (.inl rfl)
  | delete id => exact ((leads_write (.delete id) c).2 w r h).imp_right .inr

/-! ## Stages -/

/-- How far a report has come. -/
inductive Stage
  /-- The store has not been changed. -/
  | unwritten
  /-- The engine has not been called. -/
  | uncalled
  /-- The lock has not been taken for the change of the index. -/
  | unentered
  /-- The bookmarks are about to be read for a new index. -/
  | reading
  /-- The snapshot of a new index is about to be cached. -/
  | publishing (ix : Index)
  /-- The index was changed, and its snapshot is about to be cached. -/
  | saving (ix : Index)
  /-- The lock is about to be taken again. -/
  | forgetting
  /-- What is known of similar bookmarks is about to be forgotten. -/
  | clearing
  | ended

namespace Stage

/-- The lock has not been taken for the change of the index. -/
def IsAhead : Stage → Prop
  | unwritten | uncalled | unentered => True
  | _ => False

/-- The lock is held. -/
def Holds : Stage → Prop
  | reading | publishing _ | saving _ | clearing => True
  | _ => False

end Stage

/-- A task stands at a stage of a report. -/
def Stands (c : IndexChange) : Stage → Task α Unit → Prop
  | .unwritten, t => ∃ x, c.write? = some x ∧ (t = c.report ∨ t = x.call.bind fun _ => c.call)
  | .uncalled, t => t = c.call
  | .unentered, t => ∃ i, t = c.rest i
  | .reading, t => c = .rebuild ∧ Reads t
  | .publishing ix, t => Publishes ix t
  | .saving ix, t => Saves ix t
  | .forgetting, t => Forgets t
  | .clearing, t => Clears t
  | .ended, t => t = .done ()

/-- What a report does in one turn. -/
inductive Step (c : IndexChange) : Stage → State α → Stage → State α → Prop
  | heed {w : State α} : Step c .unwritten w .unwritten w
  | write {w : State α} {x : Write} (hx : c.write? = some x) : Step c .unwritten w .uncalled (x.make w)
  | call {w : State α} : Step c .uncalled w .unentered w
  | enter {w : State α} (hc : c = .rebuild) (hl : w.isLocked = false) : Step c .unentered w .reading w.lock
  | read {w : State α} (hc : c = .rebuild) : Step c .reading w (.publishing w.builtIndex) w
  | publish {w : State α} {ix : Index} (now : Timestamp) :
      Step c (.publishing ix) w .forgetting ((w.keeping ix now).withIndex ix)
  | change {w : State α} {i : Nat} (hc : c ≠ .rebuild) (hl : w.isLocked = false) (hi : w.current = some i) :
      Step c .unentered w (.saving (c.target w (w.edition i).index))
        (w.lock.setEdition i (c.target w (w.edition i).index))
  | skip {w : State α} {i : Nat} (hc : c ≠ .rebuild) (hl : w.isLocked = false) (hi : w.current = some i)
      (hsame : c.target w (w.edition i).index = (w.edition i).index) : Step c .unentered w .ended w
  | save {w : State α} {ix : Index} (now : Timestamp) : Step c (.saving ix) w .forgetting (w.keeping ix now)
  | reenter {w : State α} (hl : w.isLocked = false) : Step c .forgetting w .clearing w.lock
  | clear {w : State α} : Step c .clearing w .ended (w.withCache (w.store.cache.clear similarityPattern))

/-- **In its turn a report fails or makes a step.**  The index that it changes must be the current one. -/
theorem Stands.step {s : Stage} {r : Task α Unit × State α} (h : Stands c s t) (hloaded : w.current = some i)
    (hlt : i < w.editions.length) (hcurrent : c ≠ .rebuild → s = .unentered → t = c.rest i)
    (ht : t.turn w = some r) : (∃ e, r.1 = .fail e) ∨ ∃ s', Step c s w s' r.2 ∧ Stands c s' r.1 := by
  cases s with
  | unwritten =>
    obtain ⟨x, hx, rfl | rfl⟩ := h
    · rw [c.report_of_write hx] at ht
      rcases turn_write ht with hf | rfl | ⟨hr, hw⟩
      · exact .inl hf
      · exact .inr ⟨.unwritten, .heed, x, hx, .inr rfl⟩
      · exact .inr ⟨.uncalled, hw ▸ .write hx, hr⟩
    · rcases (leads_write x c).2 w r ht with hf | ⟨hr, hw⟩
      · exact .inl hf
      · exact .inr ⟨.uncalled, hw ▸ .write hx, hr⟩
  | uncalled =>
    obtain rfl : t = c.call := h
    have hturn : (c.call : Task α Unit).turn w = some ((c.task true).settle w) := rfl
    rw [hturn, settle_task hloaded] at ht
    cases ht
    exact .inr ⟨.unentered, .call, i, rfl⟩
  | unentered =>
    cases c with
    | rebuild =>
      obtain ⟨_, rfl⟩ := h
      refine (leads_rebuild.2 w r ht).imp_right fun ⟨hl, hw, hr⟩ => ⟨.reading, ?_, rfl, hr⟩
      rw [hw]
      exact .enter rfl hl
    | add b =>
      rw [hcurrent nofun rfl] at ht
      refine (turn_changeFrom hlt ht).imp_right fun ⟨hl, hw, hs⟩ => ⟨.saving _, ?_, hs⟩
      rw [hw]
      exact .change nofun hl hloaded
    | update b =>
      rw [hcurrent nofun rfl] at ht
      refine (turn_changeFrom hlt ht).imp_right fun ⟨hl, hw, hs⟩ => ⟨.saving _, ?_, hs⟩
      rw [hw]
      exact .change nofun hl hloaded
    | remove id =>
      rw [hcurrent nofun rfl] at ht
      obtain ⟨hl, ⟨hw, hs⟩ | ⟨rfl, hsame⟩⟩ := turn_removeFrom hlt ht
      · refine .inr ⟨.saving _, ?_, hs⟩
        rw [hw]
        exact .change nofun hl hloaded
      · exact .inr ⟨.ended, .skip nofun hl hloaded hsame, rfl⟩
  | reading =>
    obtain ⟨hc, h⟩ := h
    refine (h.2 w r ht).imp_right fun ⟨hw, hp⟩ => ⟨.publishing w.builtIndex, ?_, hp⟩
    rw [hw]
    exact .read hc
  | publishing ix =>
    refine (h.2 w r ht).imp_right fun ⟨⟨now, hw⟩, hf⟩ => ⟨.forgetting, ?_, hf⟩
    rw [hw]
    exact .publish now
  | saving ix =>
    refine (h.2 w r ht).imp_right fun ⟨⟨now, hw⟩, hf⟩ => ⟨.forgetting, ?_, hf⟩
    rw [hw]
    exact .save now
  | forgetting =>
    refine (h.2 w r ht).imp_right fun ⟨hl, hw, hc⟩ => ⟨.clearing, ?_, hc⟩
    rw [hw]
    exact .reenter hl
  | clearing =>
    refine (h.2 w r ht).imp_right fun ⟨hr, hw⟩ => ⟨.ended, ?_, hr⟩
    rw [hw]
    exact .clear
  | ended =>
    obtain rfl : t = .done () := h
    cases ht

end Shelfmark.Engine
