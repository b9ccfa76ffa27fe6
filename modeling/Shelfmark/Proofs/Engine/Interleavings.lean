import Shelfmark.Proofs.Engine.Concord

/-!
# Interleaved reports

Changes of bookmarks are reported to an engine with a loaded index, in turns with each other and with the making of a
new index.

- A turn of a report that is in order keeps the reports in concord, or the report fails (`Staged.turn`), and so does a
  run in order (`Interleaved.concord`);
- reports that are made one after the other are in order (`exists_inOrder`);
- no change is lost if the reports make their changes in order (`interleaved_keep_changes`), and changes can be lost if
  they do not (`interleaved_lose_changes`).
-/

namespace Shelfmark.Engine

variable {α : Type} {w w' : State α} {c : IndexChange} {cs : List IndexChange} {s s' : Stage} {σ : Nat → Stage}
  {i k : Nat} {m : Moment α Unit} {pending : Option Write}

/-! ## Runs -/

/-- If a report takes the lock to make its change, then the index that it has looked up is still the current one, and
the store holds what it reports, or another change of what the index holds of the bookmark is still ahead. -/
def InOrder (cs : List IndexChange) (m : Moment α Unit) (k : Nat) : Prop :=
  ∀ c x t, cs[k]? = some c → c.write? = some x → m.tasks[k]? = some t → t.isAtLock = true → k ∉ m.entered →
    (∃ i, t = c.rest i ∧ m.state.current = some i) ∧
      (x.IsDone m.state.store.shelf ∨ ∃ j c', j ≠ k ∧ cs[j]? = some c' ∧ j ∉ m.entered ∧ c'.Concerns x.id)

/-- The tasks stand at stages of the reports; those ahead of their change have not taken the lock. -/
structure Staged (cs : List IndexChange) (σ : Nat → Stage) (m : Moment α Unit) : Prop where
  length : m.tasks.length = cs.length
  stands : ∀ j c t, cs[j]? = some c → m.tasks[j]? = some t → Stands c (σ j) t
  ahead : ∀ j, (σ j).IsAhead ↔ j ∉ m.entered
  beyond : ∀ j, cs.length ≤ j → (σ j).IsAhead

theorem Stands.isAtLock {t : Task α Unit} (h : Stands c s t) (hs : s.IsAhead) :
    t.isAtLock = true ↔ s = .unentered := by
  cases s with
  | unwritten =>
    obtain ⟨x, hx, rfl | rfl⟩ := h
    · rw [c.report_of_write hx]
      cases x <;> simp [Write.task, keepOne, heed, deleteBookmark, Task.store, Task.isAtLock, bind, Task.bind]
    · cases x <;> simp [Write.call, keepAll, deleteBookmark, Task.store, Task.isAtLock, bind, Task.bind]
  | uncalled =>
    obtain rfl : t = c.call := h
    simp [IndexChange.call, Task.pause, Task.isAtLock, bind, Task.bind]
  | unentered =>
    obtain ⟨i, rfl⟩ := h
    cases c <;>
      simp [IndexChange.rest, changeFrom, removeFrom, rebuildIndex, Task.locked, Task.isAtLock, bind, Task.bind]
  | reading | publishing | saving | forgetting | clearing | ended => exact hs.elim

theorem Step.ahead (h : Step c s w s' w') : s'.IsAhead ↔ s.IsAhead ∧ s ≠ .unentered := by
  cases h <;> simp [Stage.IsAhead]

theorem Staged.ahead_turn (h : Staged cs σ m) (hc : cs[k]? = some c) {t : Task α Unit} (ht : m.tasks[k]? = some t)
    (hs : Step c (σ k) w s' w') (j : Nat) :
    (Function.update σ k s' j).IsAhead ↔ j ∉ (if t.isAtLock then m.entered ++ [k] else m.entered) := by
  have hstands := h.stands k c t hc ht
  by_cases hj : j = k
  · subst hj
    rw [Function.update_self, hs.ahead]
    by_cases hahead : (σ j).IsAhead
    · have hn := (h.ahead j).mp hahead
      have hlock := hstands.isAtLock hahead
      split
      · simp [hlock.mp ‹_›]
      · simp [hahead, hn, mt hlock.mpr ‹_›]
    · have hmem : j ∈ m.entered := by_contra fun hn => hahead ((h.ahead j).mpr hn)
      split <;> simp [hahead, hmem]
  · rw [Function.update_of_ne hj, h.ahead]
    split <;> simp [hj]

/-- **A turn of one of the reports makes it fail, or it is a step that keeps all of them in concord.** -/
theorem Staged.turn (h : Staged cs σ m) (hw : Concord cs σ m.state) (ho : InOrder cs m k) {t t' : Task α Unit}
    {v : State α} (ht : m.tasks[k]? = some t) (hturn : t.turn m.state = some (t', v)) :
    (∃ e, t' = .fail e) ∨ ∃ σ', Concord cs σ' v ∧
      Staged cs σ' ⟨m.tasks.set k t', v, if t.isAtLock then m.entered ++ [k] else m.entered⟩ := by
  obtain ⟨hk, _⟩ := List.getElem?_eq_some_iff.mp ht
  obtain ⟨c, hc⟩ : ∃ c, cs[k]? = some c := ⟨_, List.getElem?_eq_getElem (h.length ▸ hk)⟩
  obtain ⟨i, hi, hlt⟩ := hw.loaded
  have hstands := h.stands k c t hc ht
  have horder : ∀ x, c.write? = some x → σ k = .unentered →
      (∃ i, t = c.rest i ∧ m.state.current = some i) ∧ Timely cs σ k x m.state := by
    intro x hx hs
    have hahead : (σ k).IsAhead := hs ▸ trivial
    simpa only [Timely, h.ahead] using ho c x t hc hx ht ((hstands.isAtLock hahead).mpr hs) ((h.ahead k).mp hahead)
  have hcurrent : c ≠ .rebuild → σ k = .unentered → t = c.rest i := by
    intro hne hs
    obtain ⟨x, hx⟩ := c.write_of_ne hne
    obtain ⟨i', hrest, hi'⟩ := (horder x hx hs).1
    cases hi.symm.trans hi'
    exact hrest
  refine (hstands.step hi hlt hcurrent hturn).imp_right fun ⟨s', hs, hstands'⟩ => ?_
  refine ⟨Function.update σ k s', hw.step hc hs fun x hx hs => (horder x hx hs).2, ?_, fun j c' u hj hu => ?_,
    h.ahead_turn hc ht hs, fun j hj => ?_⟩
  · rw [List.length_set, h.length]
  · by_cases he : j = k
    · subst he
      rw [List.getElem?_set_self hk] at hu
      cases hu
      cases hc.symm.trans hj
      rwa [Function.update_self]
    · rw [Function.update_of_ne he]
      rw [List.getElem?_set_ne (Ne.symm he)] at hu
      exact h.stands j c' u hj hu
  · have hne : j ≠ k := by
      have := h.length ▸ hk
      omega
    rw [Function.update_of_ne hne]
    exact h.beyond j hj

/-- The stage that a report begins with. -/
def IndexChange.stage : IndexChange → Stage
  | rebuild => .uncalled
  | add _ | update _ | remove _ => .unwritten

/-- The stages that the reports begin with. -/
def firstStages (cs : List IndexChange) (j : Nat) : Stage := (cs[j]?.map (·.stage)).getD .unwritten

theorem firstStages_ahead (cs : List IndexChange) (j : Nat) : (firstStages cs j).IsAhead := by
  rw [firstStages]
  cases cs[j]? with
  | none => trivial
  | some c => cases c <;> trivial

theorem Stage.IsAhead.not_holds (h : s.IsAhead) : ¬s.Holds := by
  cases s with
  | unwritten | uncalled | unentered => exact id
  | reading | publishing | saving | forgetting | clearing | ended => exact h.elim

theorem concord_start (hr : .rebuild ∈ cs) (hi : w.current = some i) (hlt : i < w.editions.length) :
    Concord cs (firstStages cs) w := by
  refine ⟨⟨i, hi, hlt⟩, fun j hj => ?_, fun j _ hj _ => ?_, fun hread => ?_⟩
  · exact absurd hj (firstStages_ahead cs j).not_holds
  · exact absurd hj (firstStages_ahead cs j).not_holds
  · obtain ⟨j, hj⟩ := List.mem_iff_getElem?.mp hr
    have hread := hread j hj
    simp only [firstStages, hj] at hread
    exact hread.elim

theorem staged_start (cs : List IndexChange) (w : State α) :
    Staged cs (firstStages cs) ⟨cs.map (·.report), w, []⟩ := by
  refine ⟨by simp, fun j c t hc ht => ?_, fun j => ?_, fun j _ => firstStages_ahead cs j⟩
  · simp only [List.getElem?_map, hc, Option.map_some, Option.some.injEq] at ht
    subst ht
    simp only [firstStages, hc, Option.map_some, Option.getD_some]
    cases c with
    | rebuild => rfl
    | add b | update b | remove id => exact ⟨_, rfl, .inl rfl⟩
  · simp [firstStages_ahead]

/-- A run in order keeps the reports in concord, as long as none of them fails. -/
theorem Interleaved.concord (h : Interleaved (InOrder cs) ⟨cs.map (·.report), w, []⟩ m) (hr : .rebuild ∈ cs)
    (hi : w.current = some i) (hlt : i < w.editions.length) :
    (∃ t ∈ m.tasks, ∃ e, t = .fail e) ∨ ∃ σ, Concord cs σ m.state ∧ Staged cs σ m := by
  induction h with
  | start => exact .inr ⟨_, concord_start hr hi hlt, staged_start cs w⟩
  | @turn n k t t' v _ ho ht hturn ih =>
    rcases ih with ⟨u, hu, e, rfl⟩ | ⟨σ, hw, hm⟩
    · -- a task that has failed has no more turns
      obtain ⟨j, hj⟩ := List.mem_iff_getElem?.mp hu
      have hne : k ≠ j := by
        rintro rfl
        cases ht.symm.trans hj
        cases hturn
      refine .inl ⟨.fail e, List.mem_iff_getElem?.mpr ⟨j, ?_⟩, e, rfl⟩
      rwa [List.getElem?_set_ne hne]
    · rcases hm.turn hw ho ht hturn with ⟨e, rfl⟩ | ⟨σ', hw', hm'⟩
      · obtain ⟨hk, _⟩ := List.getElem?_eq_some_iff.mp ht
        exact .inl ⟨.fail e, List.mem_iff_getElem?.mpr ⟨k, List.getElem?_set_self hk⟩, e, rfl⟩
      · exact .inr ⟨σ', hw', hm'⟩

/-- A report that has its result has ended. -/
theorem Stands.ended (h : Stands c s (.done () : Task α Unit)) : s = .ended := by
  cases s with
  | unwritten =>
    obtain ⟨x, hx, he | he⟩ := h
    · rw [IndexChange.report_of_write hx] at he
      cases x <;> cases he
    · cases x <;> cases he
  | uncalled => cases h
  | unentered =>
    obtain ⟨i, he⟩ := h
    cases c <;> cases he
  | reading => exact absurd rfl h.2.1
  | publishing | saving | forgetting | clearing => exact absurd rfl h.1
  | ended => rfl

/-! ## Reports one after the other -/

theorem inOrder_of_rebuild (hk : cs[k]? = some .rebuild) (m : Moment α Unit) : InOrder cs m k := by
  intro c x t hc hx
  cases hk.symm.trans hc
  cases hx

theorem inOrder_of_entered (hk : k ∈ m.entered) : InOrder cs m k := fun _ _ _ _ _ _ _ hn => absurd hk hn

theorem inOrder_of_not_atLock (hk : ∀ t, m.tasks[k]? = some t → t.isAtLock = false) : InOrder cs m k :=
  fun _ _ t _ _ ht hl _ => absurd (hl.symm.trans (hk t ht)) nofun

/-- The change of a bookmark is made in the store. -/
theorem Interleaved.written {allowed : Moment α Unit → Nat → Prop} {m₀ : Moment α Unit} {ts : List (Task α Unit)}
    {v v' : State α} {es : List Nat} (h : Interleaved allowed m₀ ⟨ts, v, es⟩) {x : Write} (hx : c.write? = some x)
    (ht : ts[k]? = some c.report) (ha : ∀ t' v', t'.isAtLock = false → allowed ⟨ts.set k t', v', es⟩ k)
    (hrun : (x.task : Task α Unit).run v = (.ok (), v')) :
    Interleaved allowed m₀ ⟨ts.set k c.call, v', es⟩ := by
  obtain ⟨hk, hget⟩ := List.getElem?_eq_some_iff.mp ht
  have hsettled := h.settle ht fun hl => by
    have hset := ha c.report v hl
    rwa [← hget, List.set_getElem_self] at hset
  rw [IndexChange.report_of_write hx] at hsettled
  have hwritten := hsettled.lockless hk (lockless_write x) _ ha
  rw [hrun] at hwritten
  exact hwritten

section Report

variable {ts : List (Task α Unit)} {v : State α} {es : List Nat}

/-- The making of a new index is in order at any time. -/
theorem Interleaved.rebuilt (h : Interleaved (InOrder cs) m ⟨ts, v, es⟩) (hc : cs[k]? = some .rebuild)
    (ht : ts[k]? = some IndexChange.rebuild.report) (hv : AtRest pending v) :
    ∃ v' es', Interleaved (InOrder cs) m ⟨ts.set k (.done ()), v', es'⟩ ∧ AtRest pending v' := by
  obtain ⟨v', hrun, hv'⟩ := hv.rebuild
  obtain ⟨es', hmade⟩ := h.alone ht (orderly_report .rebuild) (fun _ _ _ _ => inOrder_of_rebuild hc _) hv.free
  have hreport : (IndexChange.rebuild.report : Task α Unit).run v = (.ok (), v') :=
    (IndexChange.run_call .rebuild v).trans hrun
  rw [hreport] at hmade
  exact ⟨v', es', hmade, hv'⟩

/-- A change that was made in the store is reported: the number of the index is looked up, and the lock is taken. -/
theorem Interleaved.called (h : Interleaved (InOrder cs) m ⟨ts, v, es⟩) (hc : cs[k]? = some c)
    (ht : ts[k]? = some c.call) {x : Write} (hx : c.write? = some x) (hv : AtRest (some x) v) :
    ∃ v' es', Interleaved (InOrder cs) m ⟨ts.set k (.done ()), v', es'⟩ ∧ AtRest none v' := by
  obtain ⟨hk, _⟩ := List.getElem?_eq_some_iff.mp ht
  obtain ⟨i, hi⟩ := hv.loaded
  have hne : c ≠ .rebuild := by
    rintro rfl
    cases hx
  have hlooked : Interleaved (InOrder cs) m ⟨ts.set k (c.rest i), v, es⟩ := by
    refine h.turn (inOrder_of_not_atLock fun t ht' => ?_) ht (congrArg some (settle_task hi c))
    cases ht.symm.trans ht'
    rfl
  have horder : InOrder cs ⟨ts.set k (c.rest i), v, es⟩ k := by
    intro c' x' t hc' hx' ht' _ _
    cases hc.symm.trans hc'
    cases hx.symm.trans hx'
    cases (List.getElem?_set_self hk).symm.trans ht'
    exact ⟨⟨i, rfl, hi⟩, .inl (hv.inStep.isDone x rfl)⟩
  obtain ⟨v', hrun, hv'⟩ := AtRest.call (c := c) (hx ▸ hv)
  have hrest : (c.rest i : Task α Unit).run v = (.ok (), v') := by
    rw [← hrun, ← Task.run_settle (c.task true), settle_task hi]
  obtain ⟨γ, t, g, heq, ht', hg⟩ := IndexChange.rest_eq (α := α) hne i
  rw [heq] at hlooked horder hrest
  obtain ⟨es', hentered⟩ := hlooked.entering (List.getElem?_set_self hk) ht' hg horder
    (fun _ _ _ he => inOrder_of_entered he) hv.free
  rw [hrest, List.set_set] at hentered
  exact ⟨v', es', hentered, hv'⟩

/-- A report that has all turns to itself is in order. -/
theorem Interleaved.reported (h : Interleaved (InOrder cs) m ⟨ts, v, es⟩) (hc : cs[k]? = some c)
    (ht : ts[k]? = some c.report) (hv : AtRest none v) :
    ∃ v' es', Interleaved (InOrder cs) m ⟨ts.set k (.done ()), v', es'⟩ ∧ AtRest none v' := by
  obtain ⟨hk, _⟩ := List.getElem?_eq_some_iff.mp ht
  by_cases hne : c = .rebuild
  · subst hne
    exact h.rebuilt hc ht hv
  · obtain ⟨x, hx⟩ := c.write_of_ne hne
    obtain ⟨hrun, hv'⟩ := hv.write x
    have hwritten := h.written hx ht (fun t' v' hl => inOrder_of_not_atLock fun t ht' => by
      cases (List.getElem?_set_self hk).symm.trans ht'
      exact hl) hrun
    obtain ⟨v', es', hcalled, hv'⟩ := hwritten.called hc (List.getElem?_set_self hk) hx hv'
    rw [List.set_set] at hcalled
    exact ⟨v', es', hcalled, hv'⟩

end Report

/-- **Reports that are made one after the other are in order.** -/
theorem exists_inOrder (h : AtRest none w) (cs : List IndexChange) : ∃ v es,
    Interleaved (InOrder cs) ⟨cs.map (·.report), w, []⟩ ⟨List.replicate cs.length (.done ()), v, es⟩ ∧
      AtRest none v := by
  -- by induction on the reports that are left, behind those that have ended
  have hleft : ∀ ended left, cs = ended ++ left → ∀ v es, AtRest none v →
      Interleaved (InOrder cs) ⟨cs.map (·.report), w, []⟩
        ⟨List.replicate ended.length (.done ()) ++ left.map (·.report), v, es⟩ →
      ∃ v' es', Interleaved (InOrder cs) ⟨cs.map (·.report), w, []⟩
        ⟨List.replicate cs.length (.done ()), v', es'⟩ ∧ AtRest none v' := by
    intro ended left
    induction left generalizing ended with
    | nil =>
      intro hcs v es hv hm
      rw [List.append_nil] at hcs
      rw [← hcs, List.map_nil, List.append_nil] at hm
      exact ⟨v, es, hm, hv⟩
    | cons c left ih =>
      intro hcs v es hv hm
      have hc : cs[ended.length]? = some c := by simp [hcs]
      obtain ⟨v', es', hm', hv'⟩ := hm.reported hc (by simp) hv
      refine ih (ended ++ [c]) (by simp [hcs]) v' es' hv' ?_
      simpa [List.replicate_succ'] using hm'
  exact hleft [] cs rfl w [] h .start

/-! ## What is kept and what is lost -/

/-- **No change of the index is lost while it is made anew.**  Changes of bookmarks are reported to an engine with a
loaded index, in turns with each other and with the making of a new index.  If the reports make their changes in order
and none fails, the current index holds the documents of the bookmarks in the end, and its snapshot is cached. -/
theorem interleaved_keep_changes (hr : .rebuild ∈ cs) (hi : w.current = some i) (hlt : i < w.editions.length)
    (h : Interleaved (InOrder cs) ⟨cs.map (·.report), w, []⟩ m) (hdone : ∀ t ∈ m.tasks, t.result? = some (.ok ())) :
    ∃ ix, m.state.currentIndex? = some ix ∧ m.state.HasSnapshot ix ∧ (ix.documents.map (·.id)).Nodup ∧
      ∀ d, d ∈ ix.documents ↔
        ∃ b ∈ m.state.store.shelf.bookmarks, Document.of Bookmark.indexedFields b = .ok d := by
  rcases h.concord hr hi hlt with ⟨t, ht, e, rfl⟩ | ⟨σ, hw, hm⟩
  · cases hdone _ ht
  have hended : ∀ j c, cs[j]? = some c → σ j = .ended := by
    intro j c hc
    obtain ⟨hj, _⟩ := List.getElem?_eq_some_iff.mp hc
    obtain ⟨t, ht⟩ : ∃ t, m.tasks[j]? = some t := ⟨_, List.getElem?_eq_getElem (hm.length ▸ hj)⟩
    have hstands := hm.stands j c t hc ht
    have hresult := hdone t (List.mem_of_getElem? ht)
    cases t with
    | done u => exact hstands.ended
    | fail | act | call | acquire | release => cases hresult
  have hquiet : ∀ j, ¬(σ j).Saves := by
    intro j
    cases hc : cs[j]? with
    | some c => exact hended j c hc ▸ id
    | none => exact fun hs => (hm.beyond j (List.getElem?_eq_none_iff.mp hc)).not_holds hs.holds
  obtain ⟨ix, hix, hmirrors⟩ := hw.mirrors fun j hj => hended j _ hj ▸ trivial
  have hpending : ∀ id, ¬Pending cs σ id := by
    rintro id ⟨j, c, hc, hahead, _⟩
    rw [hended j c hc] at hahead
    exact hahead
  obtain ⟨hnodup, hdocuments⟩ := Reflects.documents (hmirrors.mirrors hpending)
  cases hix with
  | @publishing k hk => exact absurd (hk ▸ trivial) (hquiet k)
  | @saving k hk => exact absurd (hk ▸ trivial) (hquiet k)
  | settled _ hix hc => exact ⟨ix, hix, hc.hasSnapshot, hnodup, hdocuments⟩

/-- A bookmark is kept while the engine has an index; the index is made anew, and then the bookmark is reported. -/
theorem interleaved_keep_changes_sample :
    let b : Bookmark := { id := "a", title := "Lean" }
    let cs : List IndexChange := [.rebuild, .update b]
    ∃ (w : State Unit) (i : Nat) (m : Moment Unit Unit), w = (loadIndex.run {}).2 ∧ .rebuild ∈ cs ∧
      w.current = some i ∧ i < w.editions.length ∧ Interleaved (InOrder cs) ⟨cs.map (·.report), w, []⟩ m ∧
      (∀ t ∈ m.tasks, t.result? = some (.ok ())) ∧
      ∃ ix, m.state.currentIndex? = some ix ∧ m.state.HasSnapshot ix ∧
        ∀ d, d ∈ ix.documents ↔ ∃ b ∈ m.state.store.shelf.bookmarks, Document.of Bookmark.indexedFields b = .ok d := by
  intro b cs
  have h₀ : Pristine ({} : State Unit) := ⟨rfl, rfl, rfl, rfl⟩
  have hfree := orderly_loadIndex.isLocked_run (w := ({} : State Unit)) rfl
  obtain ⟨i, w, hload, hi, _, hw⟩ := h₀.inStep.load
  rw [hload] at hfree ⊢
  have hlt := (hw.loaded i hi).1
  have hrest : AtRest none w := ⟨hw, hfree, i, hi⟩
  obtain ⟨hkeep, hkept⟩ := hrest.write (.keep b)
  have hwritten : Interleaved (InOrder cs) ⟨cs.map (·.report), w, []⟩
      ⟨[IndexChange.rebuild.report, (IndexChange.update b).call], (Write.keep b).make w, []⟩ := by
    refine Interleaved.written (k := 1) .start rfl rfl (fun t' v' hl => ?_) hkeep
    refine inOrder_of_not_atLock fun t ht => ?_
    cases ht
    exact hl
  obtain ⟨v, es, hrebuilt, hv⟩ := hwritten.rebuilt (k := 0) rfl rfl hkept
  obtain ⟨v', es', hm, _⟩ := hrebuilt.called (k := 1) rfl rfl rfl hv
  have hdone : ∀ t ∈ ([.done (), .done ()] : List (Task Unit Unit)), t.result? = some (.ok ()) := by
    simp [Task.result?]
  obtain ⟨ix, hix, hs, _, hd⟩ := interleaved_keep_changes (by simp [cs]) hi hlt hm hdone
  exact ⟨w, i, _, rfl, by simp [cs], hi, hlt, hm, hdone, ix, hix, hs, hd⟩

/-- A schedule after which the reports have ended and the current index lacks the document of a bookmark. -/
theorem exists_lost (turns : List Nat)
    (hr : (interleave turns (cs.map (·.report)) w).1.map (·.result?.map Except.toBool) =
      List.replicate cs.length (some true))
    (hlost : ∀ ix ∈ (interleave turns (cs.map (·.report)) w).2.currentIndex?,
      ∃ d ∈ (interleave turns (cs.map (·.report)) w).2.store.shelf.bookmarks.map
        (Document.docOf Bookmark.indexedFields), d ∉ ix.documents) :
    ∃ m : Moment α Unit, Interleaved Freely ⟨cs.map (·.report), w, []⟩ m ∧
      (∀ t ∈ m.tasks, t.result? = some (.ok ())) ∧ ¬∃ ix, m.state.currentIndex? = some ix ∧
        ∀ d, d ∈ ix.documents ↔
          ∃ b ∈ m.state.store.shelf.bookmarks, Document.of Bookmark.indexedFields b = .ok d := by
  obtain ⟨es, h⟩ := interleaved_interleave turns (cs.map (·.report)) w
  refine ⟨_, h, fun t ht => ?_, ?_⟩
  · have hmem := List.mem_map_of_mem (f := fun t : Task α Unit => t.result?.map Except.toBool) ht
    rw [hr] at hmem
    have hresult := List.eq_of_mem_replicate hmem
    cases t with
    | done u => rfl
    | fail | act | call | acquire | release => cases hresult
  · rintro ⟨ix, hix, hdocuments⟩
    obtain ⟨d, hd, hlost⟩ := hlost ix hix
    obtain ⟨b, hb, rfl⟩ := List.mem_map.mp hd
    exact hlost ((hdocuments _).mpr ⟨b, hb, Document.of_indexed (fun _ hn => hn) b⟩)

/-- Reports that are not in order lose changes: one that has looked up the index before it is made anew, and one of an
earlier version of a bookmark after that of a later one. -/
theorem interleaved_lose_changes :
    let b : Bookmark := { id := "a", title := "Java" }
    let b' : Bookmark := { id := "a", title := "Lean" }
    ∃ (w : State Unit) (i : Nat), w = (loadIndex.run {}).2 ∧ w.current = some i ∧ i < w.editions.length ∧
      ∀ cs ∈ ([[.rebuild, .update b], [.rebuild, .update b, .update b']] : List (List IndexChange)),
        ∃ m : Moment Unit Unit, Interleaved Freely ⟨cs.map (·.report), w, []⟩ m ∧
          (∀ t ∈ m.tasks, t.result? = some (.ok ())) ∧ ¬∃ ix, m.state.currentIndex? = some ix ∧
            ∀ d, d ∈ ix.documents ↔
              ∃ b ∈ m.state.store.shelf.bookmarks, Document.of Bookmark.indexedFields b = .ok d := by
  intro b b'
  refine ⟨_, 0, rfl, by decide +kernel, by decide +kernel, ?_⟩
  simp only [List.forall_mem_cons, List.not_mem_nil, false_imp_iff, implies_true, and_true]
  constructor
  · -- the report looks up the index while the new one, made without the bookmark, is about to be cached
    exact exists_lost [0, 0, 1, 1, 1, 0, 0, 1, 1, 1] (by decide +kernel) (by decide +kernel)
  · -- both versions are kept, and the later one is reported first
    exact exists_lost [0, 0, 0, 0, 1, 1, 2, 2, 2, 2, 2, 1, 1, 1] (by decide +kernel) (by decide +kernel)

end Shelfmark.Engine
