import Shelfmark.Proofs.Engine.Runs

/-!
# Tasks that read

A task only reads (`ReadsOnly`) if it changes nothing and answers the same wherever bookmarks are looked up alike
(`SameLookups`).  What is made of reading tasks reads (`ReadsOnly.bind`), and so does the search for the candidates of a
bookmark (`reads_targetAndCandidates`).
-/

namespace Shelfmark.Engine

open Similarity

variable {α β γ : Type} {w w' w'' : State α}

/-- Bookmarks are looked up alike in both states. -/
structure SameLookups (w w' : State α) : Prop where
  shelf : w'.store.shelf = w.store.shelf
  isOpen : w'.store.isOpen = w.store.isOpen
  faults : w'.faults = w.faults
  settings : w'.settings = w.settings

theorem SameLookups.trans (h : SameLookups w w') (h' : SameLookups w' w'') : SameLookups w w'' :=
  ⟨h'.shelf.trans h.shelf, h'.isOpen.trans h.isOpen, h'.faults.trans h.faults, h'.settings.trans h.settings⟩

theorem SameLookups.ready (h : SameLookups w w') {op : StoreOperation} (hw : w.Ready op) : w'.Ready op := by
  simp only [State.Ready, State.faultOf, h.faults, h.isOpen] at *
  exact hw

/-- A task changes nothing, and answers the same wherever bookmarks are looked up alike. -/
structure ReadsOnly (t : Task α β) : Prop where
  unchanged : ∀ w, (t.run w).2 = w
  same : ∀ {w w'}, SameLookups w w' → (t.run w').1 = (t.run w).1

namespace ReadsOnly

variable {t t' : Task α β} {g : β → Task α γ}

theorem run (h : ReadsOnly t) (w : State α) : t.run w = ((t.run w).1, w) := Prod.ext rfl (h.unchanged w)

theorem pure (b : β) : ReadsOnly (Pure.pure b : Task α β) := ⟨fun _ => rfl, fun _ => rfl⟩

theorem look {f : State α → β} (h : ∀ {w w'}, SameLookups w w' → f w' = f w) : ReadsOnly (Task.look f) :=
  ⟨fun _ => rfl, fun hl => congrArg Except.ok (h hl)⟩

/-- **One reading task after another reads.** -/
theorem bind (h : ReadsOnly t) (hg : ∀ b, ReadsOnly (g b)) : ReadsOnly (t >>= g) := by
  constructor
  · intro w
    rw [Task.run_bind, h.run w]
    cases (t.run w).1 with
    | ok b => exact (hg b).unchanged w
    | error e => rfl
  · intro w w' hl
    rw [Task.run_bind, Task.run_bind, h.run w, h.run w', h.same hl]
    cases (t.run w).1 with
    | ok b => exact (hg b).same hl
    | error e => rfl

theorem ite {c : Prop} [Decidable c] (h : ReadsOnly t) (h' : ReadsOnly t') : ReadsOnly (if c then t else t') := by
  split
  · exact h
  · exact h'

/-- A call of the store that lists some of the bookmarks. -/
theorem store {op : StoreOperation} {f : Shelf → Except Fault β} :
    ReadsOnly (Task.store op fun w : State α => (f w.store.shelf, w)) := by
  constructor
  · intro w
    by_cases hw : w.Ready op
    · rw [run_store hw]
    · obtain ⟨e, _, he⟩ := run_store_not_ready hw
      rw [he]
  · intro w w' hl
    have hfault : w'.faultOf op = w.faultOf op := by rw [State.faultOf, State.faultOf, hl.faults]
    show ((Task.ofExcept _).run _).1 = ((Task.ofExcept _).run _).1
    rw [Task.run_ofExcept, Task.run_ofExcept, hfault, hl.isOpen]
    cases w.faultOf op with
    | some message => rfl
    | none =>
      cases w.store.isOpen with
      | false => rfl
      | true => exact congrArg f hl.shelf

end ReadsOnly

/-! ## Look-ups -/

theorem reads_allBookmarks : ReadsOnly (allBookmarks : Task α _) :=
  .store (f := fun s => s.all.mapM Bookmark.reread)

theorem reads_bookmarkWithId (id : String) : ReadsOnly (bookmarkWithId id : Task α _) :=
  .store (f := fun s => (s.get? id).mapM Bookmark.reread)

theorem reads_bookmarksOfDomain (domain : String) (limit : Option Int) :
    ReadsOnly (bookmarksOfDomain domain limit : Task α _) :=
  .store (f := fun s => (s.ofDomain domain limit).bind (·.mapM Bookmark.reread))

theorem reads_bookmarksOfCategory (category : String) (limit : Option Int) :
    ReadsOnly (bookmarksOfCategory category limit : Task α _) :=
  .store (f := fun s => (s.ofCategory category limit).bind (·.mapM Bookmark.reread))

theorem reads_candidatesFromStore (target : Bookmark) (caps : Caps) :
    ReadsOnly (candidatesFromStore target caps : Task α _) := by
  unfold candidatesFromStore
  -- what follows is the same in both branches
  refine .ite ((ReadsOnly.pure _).bind fun _ => ?_) ((reads_bookmarksOfDomain _ _).bind fun _ => ?_)
  all_goals
    refine .ite ((ReadsOnly.pure _).bind fun _ => ?_) ((reads_bookmarksOfCategory _ _).bind fun _ => ?_)
    all_goals exact .ite ((ReadsOnly.pure _).bind fun _ => .pure _) (reads_allBookmarks.bind fun _ => .pure _)

/-- **The search for candidates reads.** -/
theorem reads_targetAndCandidates (id : String) (corpus : Option (List Bookmark)) :
    ReadsOnly (targetAndCandidates id corpus : Task α _) := by
  unfold targetAndCandidates
  refine (reads_bookmarkWithId id).bind fun b => ?_
  cases b with
  | none => exact .pure _
  | some target =>
    refine (ReadsOnly.look fun hl => by rw [hl.settings]).bind fun caps => ?_
    cases corpus with
    | none => exact (reads_candidatesFromStore target caps).bind fun _ => .pure _
    | some bs => exact (ReadsOnly.pure _).bind fun _ => .pure _

end Shelfmark.Engine
