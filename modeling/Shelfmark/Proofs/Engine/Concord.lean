import Shelfmark.Proofs.Engine.Agreement
import Shelfmark.Proofs.Engine.Stages

/-!
# Reports in concord

Several reports are under way at the same time, each at a stage of its own.  They are in concord (`Concord`) if one of
them at most holds the lock and, as soon as the bookmarks have been read for the new index, the index that settles
(`Settling`) mirrors the bookmarks, apart from those with a change that is still ahead (`Pending`).

- An index settles as soon as it is about to be cached; what is about to be cached while the lock is held is the current
  index in the end (`Concord.eq_of_publishing`, `Concord.eq_of_saving`, `Concord.settled_of_free`);
- each step of a report keeps the reports in concord (`Concord.step`), if a report that changes the index says what the
  store holds, or another change that says what the index holds of the bookmark is still ahead.
-/

namespace Shelfmark.Engine

variable {α : Type} {w w' : State α} {ix : Index} {c : IndexChange} {cs : List IndexChange} {s s' : Stage}
  {σ : Nat → Stage} {i k : Nat}

/-! ## Stages of several reports -/

namespace Stage

/-- A snapshot is about to be cached. -/
def Saves : Stage → Prop
  | publishing _ | saving _ => True
  | _ => False

/-- If the report makes the index anew, the bookmarks have been read. -/
def HasRead : Stage → Prop
  | unwritten | uncalled | unentered | reading => False
  | _ => True

theorem Saves.holds (h : s.Saves) : s.Holds := by
  cases s <;> trivial

end Stage

/-- The change of what the index holds of a bookmark is still ahead. -/
def Pending (cs : List IndexChange) (σ : Nat → Stage) (id : String) : Prop :=
  ∃ j c, cs[j]? = some c ∧ (σ j).IsAhead ∧ c.Concerns id

/-- The store holds what a report says, or another change that says what the index holds of the bookmark is ahead. -/
def Timely (cs : List IndexChange) (σ : Nat → Stage) (k : Nat) (x : Write) (w : State α) : Prop :=
  x.IsDone w.store.shelf ∨ ∃ j c, j ≠ k ∧ cs[j]? = some c ∧ (σ j).IsAhead ∧ c.Concerns x.id

/-- The index that is the current one, with its snapshot in the cache, as soon as no snapshot is about to be cached. -/
inductive Settling (σ : Nat → Stage) (w : State α) (ix : Index) : Prop
  | publishing {k : Nat} (hk : σ k = .publishing ix)
  | saving {k : Nat} (hk : σ k = .saving ix) (hix : w.currentIndex? = some ix)
  | settled (hn : ∀ k, ¬(σ k).Saves) (hix : w.currentIndex? = some ix) (hc : CachedIndex w.store.cache ix)

/-- The index that settles mirrors the bookmarks, apart from those with a change that is still ahead. -/
def Mirrored (cs : List IndexChange) (σ : Nat → Stage) (w : State α) : Prop :=
  ∃ ix, Settling σ w ix ∧ ix.MirrorsBut (Pending cs σ) w.store.shelf.bookmarks

/-- One report at most holds the lock; and if the bookmarks have been read for the new index, the index that settles
mirrors them, apart from those with a change that is still ahead. -/
structure Concord (cs : List IndexChange) (σ : Nat → Stage) (w : State α) : Prop where
  loaded : ∃ i, w.current = some i ∧ i < w.editions.length
  locked : ∀ j, (σ j).Holds → w.isLocked = true
  alone : ∀ j j', (σ j).Holds → (σ j').Holds → j = j'
  mirrors : (∀ j, cs[j]? = some .rebuild → (σ j).HasRead) → Mirrored cs σ w

/-! ## Steps -/

/-- A step takes the lock, leaves it alone or gives it back. -/
theorem Step.lock (h : Step c s w s' w') :
    (w.isLocked = false ∧ w'.isLocked = true) ∨
      (w'.isLocked = w.isLocked ∧ (s'.Holds ↔ s.Holds)) ∨ (s.Holds ∧ ¬s'.Holds) := by
  cases h with
  | heed | call | read | skip => exact .inr (.inl ⟨rfl, Iff.rfl⟩)
  | write =>
    rename_i x _
    refine .inr (.inl ⟨?_, Iff.rfl⟩)
    cases x <;> rfl
  | enter _ hl | change _ hl | reenter hl => exact .inl ⟨hl, rfl⟩
  | publish | save | clear => exact .inr (.inr ⟨trivial, id⟩)

theorem Step.loaded (h : Step c s w s' w') (hw : ∃ i, w.current = some i ∧ i < w.editions.length) :
    ∃ i, w'.current = some i ∧ i < w'.editions.length := by
  cases h with
  | heed | call | read | skip | enter | reenter | save | clear => exact hw
  | write =>
    rename_i x _
    cases x <;> exact hw
  | publish =>
    refine ⟨w.editions.length, rfl, ?_⟩
    simp [State.withIndex, State.publish, State.keeping, State.withCache, State.putCache, State.unlock]
  | change =>
    obtain ⟨i, hi, hlt⟩ := hw
    exact ⟨i, hi, by simpa [State.setEdition, State.lock] using hlt⟩

theorem holds_update {j : Nat} (h : (Function.update σ k s' j).Holds) : j = k ∧ s'.Holds ∨ j ≠ k ∧ (σ j).Holds := by
  rw [Function.update_apply] at h
  split at h
  · exact .inl ⟨‹_›, h⟩
  · exact .inr ⟨‹_›, h⟩

theorem Concord.locked_step (h : Concord cs σ w) (hs : Step c (σ k) w s' w') (j : Nat)
    (hj : (Function.update σ k s' j).Holds) : w'.isLocked = true := by
  rcases hs.lock with ⟨_, hl⟩ | ⟨hl, hiff⟩ | ⟨hk, hk'⟩
  · exact hl
  · rw [hl]
    rcases holds_update hj with ⟨_, hs'⟩ | ⟨_, hj⟩
    · exact h.locked k (hiff.mp hs')
    · exact h.locked j hj
  · rcases holds_update hj with ⟨_, hs'⟩ | ⟨hne, hj⟩
    · exact absurd hs' hk'
    · exact absurd (h.alone j k hj hk) hne

theorem Concord.alone_step (h : Concord cs σ w) (hs : Step c (σ k) w s' w') (j j' : Nat)
    (hj : (Function.update σ k s' j).Holds) (hj' : (Function.update σ k s' j').Holds) : j = j' := by
  rcases hs.lock with ⟨hfree, _⟩ | ⟨_, hiff⟩ | ⟨hk, hk'⟩
  · -- nobody held the lock that was taken
    have hone : ∀ j, (Function.update σ k s' j).Holds → j = k := by
      intro j hj
      rcases holds_update hj with ⟨he, _⟩ | ⟨_, hj⟩
      · exact he
      · exact absurd ((h.locked j hj).symm.trans hfree) nofun
    rw [hone j hj, hone j' hj']
  · have hsame : ∀ j, (Function.update σ k s' j).Holds → (σ j).Holds := by
      intro j hj
      rcases holds_update hj with ⟨he, hs'⟩ | ⟨_, hj⟩
      · exact he ▸ hiff.mp hs'
      · exact hj
    exact h.alone j j' (hsame j hj) (hsame j' hj')
  · rcases holds_update hj with ⟨_, hs'⟩ | ⟨hne, hj⟩
    · exact absurd hs' hk'
    · exact absurd (h.alone j k hj hk) hne

/-! ## The index that settles -/

theorem update_of_saves {j : Nat} (hk : ¬(σ k).Saves) (hj : (σ j).Saves) : Function.update σ k s' j = σ j :=
  Function.update_of_ne (by rintro rfl; exact hk hj) _ _

theorem pending_update (h : s'.IsAhead ↔ (σ k).IsAhead) : Pending cs (Function.update σ k s') = Pending cs σ := by
  have hahead : ∀ j, (Function.update σ k s' j).IsAhead ↔ (σ j).IsAhead := by
    intro j
    rw [Function.update_apply]
    split
    · rename_i he
      rw [h, he]
    · exact Iff.rfl
  funext id
  simp only [Pending, hahead]

/-- A report that leaves index and snapshot alone. -/
theorem Settling.of_eq (h : Settling σ w ix) (hk : ¬(σ k).Saves) (hk' : ¬s'.Saves)
    (hcurrent : w'.currentIndex? = w.currentIndex?)
    (hentry : w'.store.cache.entry? indexKey = w.store.cache.entry? indexKey) :
    Settling (Function.update σ k s') w' ix := by
  cases h with
  | @publishing j hj => exact .publishing ((update_of_saves hk (hj ▸ trivial)).trans hj)
  | @saving j hj hix =>
    exact .saving ((update_of_saves hk (hj ▸ trivial)).trans hj) (hcurrent.trans hix)
  | settled hn hix hc =>
    refine .settled (fun j hj => ?_) (hcurrent.trans hix) (hc.of_entry_eq hentry)
    rw [Function.update_apply] at hj
    split at hj
    · exact hk' hj
    · exact hn j hj

section Alone

variable (h : Concord cs σ w)
include h

/-- After a report that held the lock has cached a snapshot, none is about to be cached. -/
theorem Concord.none_saves (hk : (σ k).Holds) (hk' : ¬s'.Saves) (j : Nat) : ¬(Function.update σ k s' j).Saves := by
  rw [Function.update_apply]
  split
  · exact hk'
  · intro hj
    exact absurd (h.alone j k hj.holds hk) ‹_›

theorem Concord.eq_of_publishing {ix' : Index} (hk : σ k = .publishing ix') (hix : Settling σ w ix) : ix = ix' := by
  have hholds : (σ k).Holds := hk ▸ trivial
  cases hix with
  | @publishing j hj =>
    obtain rfl := h.alone j k (hj ▸ trivial) hholds
    exact Stage.publishing.inj (hj.symm.trans hk)
  | @saving j hj =>
    obtain rfl := h.alone j k (hj ▸ trivial) hholds
    cases hj.symm.trans hk
  | settled hn => exact absurd (hk ▸ trivial) (hn k)

theorem Concord.eq_of_saving {ix' : Index} (hk : σ k = .saving ix') (hix : Settling σ w ix) :
    ix = ix' ∧ w.currentIndex? = some ix := by
  have hholds : (σ k).Holds := hk ▸ trivial
  cases hix with
  | @publishing j hj =>
    obtain rfl := h.alone j k (hj ▸ trivial) hholds
    cases hj.symm.trans hk
  | @saving j hj hix =>
    obtain rfl := h.alone j k (hj ▸ trivial) hholds
    exact ⟨Stage.saving.inj (hj.symm.trans hk), hix⟩
  | settled hn => exact absurd (hk ▸ trivial) (hn k)

/-- While the lock is free, no snapshot is about to be cached. -/
theorem Concord.settled_of_free (hl : w.isLocked = false) (hix : Settling σ w ix) :
    (∀ j, ¬(σ j).Saves) ∧ w.currentIndex? = some ix ∧ CachedIndex w.store.cache ix := by
  have hnone : ∀ j, ¬(σ j).Saves := fun j hj => absurd ((h.locked j hj.holds).symm.trans hl) nofun
  cases hix with
  | @publishing j hj => exact absurd (hj ▸ trivial) (hnone j)
  | @saving j hj => exact absurd (hj ▸ trivial) (hnone j)
  | settled hn hix hc => exact ⟨hn, hix, hc⟩

end Alone

/-! ## What the index mirrors -/

/-- A report that leaves bookmarks, index and snapshot alone. -/
theorem Mirrored.of_eq (h : Mirrored cs σ w) (hk : ¬(σ k).Saves) (hk' : ¬s'.Saves)
    (hahead : s'.IsAhead ↔ (σ k).IsAhead) (hshelf : w'.store.shelf = w.store.shelf)
    (hcurrent : w'.currentIndex? = w.currentIndex?)
    (hentry : w'.store.cache.entry? indexKey = w.store.cache.entry? indexKey) :
    Mirrored cs (Function.update σ k s') w' := by
  obtain ⟨ix, hix, hm⟩ := h
  refine ⟨ix, hix.of_eq hk hk' hcurrent hentry, ?_⟩
  rwa [pending_update hahead, hshelf]

/-- A bookmark is changed in the store, and the report of it is still ahead. -/
theorem Mirrored.write (h : Mirrored cs σ w) (hc : cs[k]? = some c) (hk : σ k = .unwritten) {x : Write}
    (hx : c.write? = some x) : Mirrored cs (Function.update σ k .uncalled) (x.make w) := by
  obtain ⟨ix, hix, hm⟩ := h
  have hpending : Pending cs σ x.id := by
    refine ⟨k, c, hc, hk ▸ trivial, fun y hy => ?_⟩
    cases hx.symm.trans hy
    rfl
  refine ⟨ix, hix.of_eq (hk ▸ id) id ?_ ?_, ?_⟩
  · cases x <;> rfl
  · cases x <;> rfl
  · rw [pending_update (by rw [hk]; exact Iff.rfl)]
    refine hm.await hpending fun b hb => ?_
    cases x with
    | keep b' => exact Shelf.mem_put_of_ne hb
    | delete id => exact Shelf.mem_remove.trans (and_iff_left hb)

/-- The new index is made of the bookmarks of the store. -/
theorem mirrored_read (w : State α) : Mirrored cs (Function.update σ k (.publishing w.builtIndex)) w := by
  have hmirrors : w.builtIndex.Mirrors none w.store.shelf.bookmarks := reflects_builtIndex w none
  exact ⟨w.builtIndex, .publishing (Function.update_self _ _ _), hmirrors.but _⟩

theorem Mirrored.publish (h : Mirrored cs σ w) (hw : Concord cs σ w) (hk : σ k = .publishing ix) (now : Timestamp) :
    Mirrored cs (Function.update σ k .forgetting) ((w.keeping ix now).withIndex ix) := by
  obtain ⟨ix', hix, hm⟩ := h
  obtain rfl := hw.eq_of_publishing hk hix
  refine ⟨ix', .settled (hw.none_saves (hk ▸ trivial) id) ?_ ⟨now, cached_set _ _ _⟩, ?_⟩
  · exact congrArg (fun e => some e.index) (edition_withIndex (w.keeping ix' now) ix')
  · rw [pending_update (by rw [hk]; exact Iff.rfl)]
    exact hm

theorem Mirrored.save (h : Mirrored cs σ w) (hw : Concord cs σ w) (hk : σ k = .saving ix) (now : Timestamp) :
    Mirrored cs (Function.update σ k .forgetting) (w.keeping ix now) := by
  obtain ⟨ix', hix, hm⟩ := h
  obtain ⟨rfl, hcurrent⟩ := hw.eq_of_saving hk hix
  refine ⟨ix', .settled (hw.none_saves (hk ▸ trivial) id) hcurrent ⟨now, cached_set _ _ _⟩, ?_⟩
  rw [pending_update (by rw [hk]; exact Iff.rfl)]
  exact hm

/-- The change of an index takes a bookmark into account if no other change of it is ahead. -/
theorem mirrorsBut_target {P P' : String → Prop} {x : Write} {sh : Shelf} (hx : c.write? = some x)
    (h : ix.MirrorsBut P sh.bookmarks) (hP : ∀ id, P id → id ≠ x.id → P' id) (hdone : ¬P' x.id → x.IsDone sh) :
    (c.target w ix).MirrorsBut P' sh.bookmarks := by
  cases c with
  | rebuild => cases hx
  | add b =>
    cases hx
    show (ix.add b).1.MirrorsBut P' sh.bookmarks
    rw [Index.add_eq_update]
    exact h.update hP hdone sh.distinct
  | update b =>
    cases hx
    exact h.update hP hdone sh.distinct
  | remove id =>
    cases hx
    exact h.remove hP hdone

/-- A report is about to make its change of the current index. -/
theorem Mirrored.target (h : Mirrored cs σ w) (hw : Concord cs σ w) (hc : cs[k]? = some c) {x : Write}
    (hx : c.write? = some x) (hl : w.isLocked = false) (hi : w.current = some i)
    (ho : Timely cs σ k x w) : Settling σ w (w.edition i).index ∧
      (c.target w (w.edition i).index).MirrorsBut (Pending cs (Function.update σ k s')) w.store.shelf.bookmarks := by
  obtain ⟨ix, hix, hm⟩ := h
  obtain ⟨_, hcurrent, _⟩ := hw.settled_of_free hl hix
  obtain rfl : (w.edition i).index = ix := by simpa [State.currentIndex?, hi] using hcurrent
  refine ⟨hix, mirrorsBut_target hx hm (fun id hid hne => ?_) fun hn => ?_⟩
  · obtain ⟨j, c', hj, hahead, hid⟩ := hid
    have hjk : j ≠ k := by
      rintro rfl
      cases hc.symm.trans hj
      exact hne (hid x hx).symm
    exact ⟨j, c', hj, by rwa [Function.update_of_ne hjk], hid⟩
  · refine ho.resolve_right ?_
    rintro ⟨j, c', hjk, hj, hahead, hid⟩
    exact hn ⟨j, c', hj, by rwa [Function.update_of_ne hjk], hid⟩

theorem Concord.mirrors_step (h : Concord cs σ w) (hc : cs[k]? = some c) (hs : Step c (σ k) w s' w')
    (ho : ∀ x, c.write? = some x → σ k = .unentered → Timely cs σ k x w)
    (hread' : ∀ j, cs[j]? = some .rebuild → (Function.update σ k s' j).HasRead) :
    Mirrored cs (Function.update σ k s') w' := by
  have hself : c = .rebuild → s'.HasRead := by
    rintro rfl
    have hk := hread' k hc
    rwa [Function.update_self] at hk
  have hmirrors : (c = .rebuild → (σ k).HasRead) → Mirrored cs σ w := by
    refine fun hk => h.mirrors fun j hj => ?_
    by_cases he : j = k
    · subst he
      exact hk (Option.some.inj (hc.symm.trans hj))
    · have hj' := hread' j hj
      rwa [Function.update_of_ne he] at hj'
  generalize hσ : σ k = s at hs
  cases hs with
  | heed | call =>
    refine (hmirrors fun he => (hself he).elim).of_eq (hσ ▸ id) id ?_ rfl rfl rfl
    simp only [hσ, Stage.IsAhead]
  | write hx => exact (hmirrors fun he => (hself he).elim).write hc hσ hx
  | enter he => exact (hself he).elim
  | read => exact mirrored_read w
  | publish now => exact (hmirrors fun _ => hσ ▸ trivial).publish h hσ now
  | change hne hl hi =>
    obtain ⟨x, hx⟩ := c.write_of_ne hne
    obtain ⟨j, hj, hlt⟩ := h.loaded
    cases hi.symm.trans hj
    obtain ⟨_, hm⟩ := (hmirrors fun he => absurd he hne).target h hc hx hl hi (ho x hx hσ)
    refine ⟨_, .saving (Function.update_self _ _ _) ?_, hm⟩
    show w.current.map _ = _
    rw [hi, Option.map_some, edition_setEdition (w := w.lock) hlt]
  | skip hne hl hi hsame =>
    obtain ⟨x, hx⟩ := c.write_of_ne hne
    obtain ⟨hix, hm⟩ := (hmirrors fun he => absurd he hne).target h hc hx hl hi (ho x hx hσ)
    rw [hsame] at hm
    exact ⟨_, hix.of_eq (hσ ▸ id) id rfl rfl, hm⟩
  | save now => exact (hmirrors fun _ => hσ ▸ trivial).save h hσ now
  | reenter =>
    refine (hmirrors fun _ => hσ ▸ trivial).of_eq (hσ ▸ id) id ?_ rfl rfl rfl
    simp only [hσ, Stage.IsAhead]
  | clear =>
    refine (hmirrors fun _ => hσ ▸ trivial).of_eq (hσ ▸ id) id ?_ rfl rfl ?_
    · simp only [hσ, Stage.IsAhead]
    · exact Cache.entry_clear (by decide) keyMatches_indexKey

/-- **A step of one report keeps all of them in concord.** -/
theorem Concord.step (h : Concord cs σ w) (hc : cs[k]? = some c) (hs : Step c (σ k) w s' w')
    (ho : ∀ x, c.write? = some x → σ k = .unentered → Timely cs σ k x w) :
    Concord cs (Function.update σ k s') w' :=
  ⟨hs.loaded h.loaded, h.locked_step hs, h.alone_step hs, h.mirrors_step hc hs ho⟩

end Shelfmark.Engine
