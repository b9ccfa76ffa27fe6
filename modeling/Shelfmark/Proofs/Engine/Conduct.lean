import Shelfmark.Proofs.Engine.Courses
import Shelfmark.Proofs.Engine.Pairs
import Shelfmark.Proofs.Engine.Reports

/-!
# What is done about cached pairs

Similar pairs are looked for, and bookmarks are changed and the changes reported (`Activity`).  Each activity conducts
itself (`Conduct`, `conduct_activity`): it caches no pairs but those of bookmarks that it has read, and if it has
changed bookmarks it does not end before it has forgotten all cached pairs — unless a bookmark is removed, which may not
be in the index.

What such a task does in one turn is one of a few deeds (`Deed`, `Conduct.turn`).
-/

namespace Shelfmark.Engine

open Similarity

variable {α β γ : Type} {w w' w'' : State α}

/-! ## Activities -/

/-- What is done beside other activities. -/
inductive Activity
  /-- Similar pairs are looked for. -/
  | find (threshold : Option Number) (maxPairs : Option Int) (useCache : Bool)
  /-- The store is changed, and the change is reported to the engine. -/
  | report (c : IndexChange) (save : Bool)
  /-- Bookmarks are kept, and the index is made anew. -/
  | refill (bs : List Bookmark)

/-- The task of an activity.  The engine is called at some time after the store was changed. -/
def Activity.task : Activity → Task α Unit
  | find threshold maxPairs useCache => (findSimilar threshold maxPairs useCache).bind fun _ => Task.done ()
  | report c save =>
    match c.write? with
    | none => Task.pause.bind fun _ => c.task save
    | some x => x.task.bind fun _ => Task.pause.bind fun _ => c.task save
  | refill bs => (keepAll bs).bind fun _ => Task.pause.bind fun _ => rebuildIndex.bind fun _ => Task.done ()

/-! ## What is left alone -/

/-- The states agree in the bookmarks and in what is out of order, and the second one has no new pairs cached. -/
structure Leaves (w w' : State α) : Prop where
  shelf : w'.store.shelf = w.store.shelf
  isOpen : w'.store.isOpen = w.store.isOpen
  faults : w'.faults = w.faults
  pairs : PairsWithin w.store.cache w'.store.cache

namespace Leaves

theorem refl (w : State α) : Leaves w w := ⟨rfl, rfl, rfl, .refl _⟩

theorem trans (h : Leaves w w') (h' : Leaves w' w'') : Leaves w w'' :=
  ⟨h'.shelf.trans h.shelf, h'.isOpen.trans h.isOpen, h'.faults.trans h.faults, h.pairs.trans h'.pairs⟩

theorem ready (h : Leaves w w') {op : StoreOperation} : w'.Ready op ↔ w.Ready op := by
  unfold State.Ready State.faultOf
  rw [h.faults, h.isOpen]

/-- Another cache without new pairs. -/
theorem cache (w : State α) {c : Cache} (hc : PairsWithin w.store.cache c) : Leaves w (w.putCache c) :=
  ⟨rfl, rfl, rfl, hc⟩

/-- A call of the store leaves alone what the operation leaves alone. -/
theorem calling {op : StoreOperation} {f : State α → Except Fault β × State α} (hf : ∀ w, Leaves w (f w).2)
    (w : State α) : Leaves w (Task.calling op f w).2 := by
  by_cases h : w.Ready op
  · rw [Task.calling_of_ready h]
    exact hf w
  · obtain ⟨e, hcall⟩ := Task.calling_not_ready h f
    rw [hcall]
    exact .refl w

end Leaves

/-! ## Plain tasks -/

/-- The task leaves bookmarks and cached pairs alone. -/
inductive Plain : Task α β → Prop
  | done (b : β) : Plain (.done b)
  | fail (e : Fault) : Plain (.fail e)
  | act {δ : Type} {f : State α → δ × State α} {k : δ → Task α β} (hf : ∀ w, Leaves w (f w).2)
      (h : ∀ c, Plain (k c)) : Plain (.act f k)
  | store {δ : Type} {op : StoreOperation} {f : State α → Except Fault δ × State α} {k : Except Fault δ → Task α β}
      (hop : op ≠ .clearCache) (hf : ∀ w, Leaves w (f w).2) (h : ∀ r, Plain (k r)) :
      Plain (.call (Task.calling op f) k)
  | acquire {k : Task α β} (h : Plain k) : Plain (.acquire k)
  | release {k : Task α β} (h : Plain k) : Plain (.release k)

namespace Plain

theorem bind {t : Task α β} (h : Plain t) {g : β → Task α γ} (hg : ∀ b, Plain (g b)) : Plain (t.bind g) := by
  induction h with
  | done b => exact hg b
  | fail e => exact .fail e
  | act hf _ ih => exact .act hf ih
  | store hop hf _ ih => exact .store hop hf ih
  | acquire _ ih => exact .acquire ih
  | release _ ih => exact .release ih

theorem attempt {t : Task α β} (h : Plain t) : Plain t.attempt := by
  induction h with
  | done b => exact .done _
  | fail e => exact .done _
  | act hf _ ih => exact .act hf ih
  | store hop hf _ ih => exact .store hop hf ih
  | acquire _ ih => exact .acquire ih
  | release _ ih => exact .release ih

theorem ofExcept (r : Except Fault β) : Plain (Task.ofExcept r : Task α β) := by
  cases r
  · exact .fail _
  · exact .done _

theorem look (f : State α → β) : Plain (Task.look f) := .act .refl .done

theorem locked {t : Task α β} (h : Plain t) : Plain (Task.locked t) :=
  .acquire (h.attempt.bind fun r => .release (.ofExcept r))

/-- A call of the store that leaves bookmarks and cached pairs alone. -/
theorem ofStore {op : StoreOperation} (hop : op ≠ .clearCache) {f : State α → Except Fault β × State α}
    (hf : ∀ w, Leaves w (f w).2) : Plain (Task.store op f) :=
  .store hop hf .ofExcept

end Plain

theorem plain_saveIndex (ix : Index) : Plain (saveIndex ix : Task α Unit) :=
  .bind (.look _) fun _ => .ofStore (by decide) fun w => by
    dsimp only
    split
    · exact .cache w (pairsWithin_set keyMatches_indexKey _ _ _ _)
    · exact .refl w

theorem plain_buildIndex : Plain (buildIndex : Task α Index) :=
  .bind (.ofStore (by decide) .refl) fun _ => .bind (plain_saveIndex _) fun _ => .done _

theorem plain_publish (ix : Index) : Plain (Task.act (·.publish ix) Task.done : Task α Nat) :=
  .act (fun _ => ⟨rfl, rfl, rfl, .refl _⟩) .done

theorem plain_loadSnapshot : Plain (loadSnapshot : Task α (Option Index)) := by
  refine .bind (.attempt (.ofStore (by decide) fun w => .cache w (pairsWithin_get _ _ _))) fun r => ?_
  cases r with
  | ok v => exact .bind (.look _) fun _ => .ofExcept _
  | error e =>
    dsimp only
    split
    · exact .done _
    · exact .fail _

theorem plain_loadIndex : Plain (loadIndex : Task α Nat) := by
  refine .bind (.look _) fun current => ?_
  cases current with
  | some i => exact .done i
  | none =>
    refine .locked (.bind (.look _) fun current => ?_)
    cases current with
    | some i => exact .done i
    | none =>
      refine .bind plain_loadSnapshot fun found => ?_
      cases found with
      | some ix => exact plain_publish ix
      | none => exact .bind plain_buildIndex plain_publish

theorem plain_changeEdition (i : Nat) (f : Index → Index × Except Fault Unit) :
    Plain (changeEdition i f : Task α Unit) :=
  .bind (.act (fun _ => ⟨rfl, rfl, rfl, .refl _⟩) .done) .ofExcept

theorem plain_saveEdition (i : Nat) : Plain (saveEdition i : Task α Unit) :=
  .bind (.look _) fun _ => plain_saveIndex _

theorem plain_cachedPairs (key : String) (maxPairs : Int) :
    Plain (cachedPairs key maxPairs : Task α (Option (List (SimilarPair Float)))) := by
  refine .bind (.attempt (.bind (.ofStore (by decide) fun w => .cache w (pairsWithin_get _ _ _)) fun _ =>
    .bind (.look _) fun _ => .ofExcept _)) fun r => ?_
  cases r <;> exact .done _

/-! ## Conduct -/

/-- The task has ended, and has not failed. -/
def Task.isDone : Task α β → Bool
  | done _ => true
  | _ => false

/-- Similar pairs are looked for. -/
def Activity.IsFind (a : Activity) : Prop := ∃ threshold maxPairs useCache, a = .find threshold maxPairs useCache

/-- A bookmark is removed. -/
def Activity.IsRemoval (a : Activity) : Prop := ∃ id save, a = .report (.remove id) save

/-- The states agree in the cache and in what is out of order. -/
structure Rewrites (w w' : State α) : Prop where
  cache : w'.store.cache = w.store.cache
  isOpen : w'.store.isOpen = w.store.isOpen
  faults : w'.faults = w.faults

/-- The task of an activity conducts itself.  It owes something if it has changed bookmarks and not forgotten the cached
pairs since; what it has seen are the bookmarks that it read last. -/
inductive Conduct (a : Activity) : Bool → Option Shelf → Task α Unit → Prop
  /-- Only a removal may end although it owes something. -/
  | done {owes : Bool} {seen : Option Shelf} (h : owes = true → a.IsRemoval) : Conduct a owes seen (.done ())
  | fail {owes : Bool} {seen : Option Shelf} (e : Fault) : Conduct a owes seen (.fail e)
  | act {owes : Bool} {seen : Option Shelf} {δ : Type} {f : State α → δ × State α} {k : δ → Task α Unit}
      (hf : ∀ w, Leaves w (f w).2) (h : ∀ w, Conduct a owes seen (k (f w).1)) : Conduct a owes seen (.act f k)
  | acquire {owes : Bool} {seen : Option Shelf} {k : Task α Unit} (h : Conduct a owes seen k) :
      Conduct a owes seen (.acquire k)
  | release {owes : Bool} {seen : Option Shelf} {k : Task α Unit} (h : Conduct a owes seen k) :
      Conduct a owes seen (.release k)
  | pause {owes : Bool} {seen : Option Shelf} {k : Except Fault Unit → Task α Unit}
      (h : ∀ r, Conduct a owes seen (k r)) : Conduct a owes seen (.call (fun w => (.ok (), w)) k)
  | store {owes : Bool} {seen : Option Shelf} {δ : Type} {op : StoreOperation}
      {f : State α → Except Fault δ × State α} {k : Except Fault δ → Task α Unit} (hop : op ≠ .clearCache)
      (hf : ∀ w, Leaves w (f w).2) (h : ∀ r, Conduct a owes seen (k r)) :
      Conduct a owes seen (.call (Task.calling op f) k)
  | read {owes : Bool} {seen : Option Shelf} {f : State α → Except Fault (List Bookmark) × State α}
      {k : Except Fault (List Bookmark) → Task α Unit} (hf : ∀ w, f w = (.ok w.store.shelf.all, w))
      (h : ∀ s : Shelf, Conduct a owes (some s) (k (.ok s.all))) :
      Conduct a owes seen (.call (Task.calling .getAll f) k)
  | write {owes : Bool} {seen : Option Shelf} {δ : Type} {op : StoreOperation}
      {f : State α → Except Fault δ × State α} {k : Except Fault δ → Task α Unit}
      (hop : op = .upsertMany ∨ op = .delete) (hf : ∀ w, Rewrites w (f w).2) (h : ∀ r, Conduct a true seen (k r)) :
      Conduct a owes seen (.call (Task.calling op f) k)
  | clear {owes : Bool} {seen : Option Shelf} {δ : Type} {f : State α → Except Fault δ × State α}
      {k : Except Fault δ → Task α Unit}
      (hf : ∀ w, (f w).2 = w.putCache (w.store.cache.clear similarityPattern)) (h : ∀ r, Conduct a false seen (k r)) :
      Conduct a owes seen (.call (Task.calling .clearCache f) k)
  /-- Only pairs of the bookmarks that were read are cached, if any. -/
  | cache {owes : Bool} {s : Shelf} (t : Number) (m : Int) (since : Timestamp) (lifetime : Option Number) {δ : Type}
      {f : State α → Except Fault δ × State α} {k : Except Fault δ → Task α Unit} (ha : a.IsFind)
      (hf : ∀ w, (f w).2 = w ∨ (f w).2 = w.putCache (w.store.cache.set w.now (pairsKeyOf t)
        (pairsEntry (similarPairs s.all t.toFloat m) m since) lifetime))
      (h : ∀ r, Conduct a owes (some s) (k r)) : Conduct a owes (some s) (.call (Task.calling .setCache f) k)

namespace Conduct

variable {a : Activity} {owes : Bool} {seen : Option Shelf}

/-- Who owes nothing may end. -/
theorem paid : Conduct a false seen (.done () : Task α Unit) := .done fun h => absurd h Bool.false_ne_true

/-- A plain task, and what comes after it. -/
theorem after {t : Task α β} (ht : Plain t) {g : β → Task α Unit} (hg : ∀ b, Conduct a owes seen (g b)) :
    Conduct a owes seen (t.bind g) := by
  induction ht with
  | done b => exact hg b
  | fail e => exact .fail e
  | act hf _ ih => exact .act hf fun w => ih _
  | store hop hf _ ih => exact .store hop hf ih
  | acquire _ ih => exact .acquire ih
  | release _ ih => exact .release ih

/-- Who forgets the cached pairs owes nothing any more. -/
theorem forget {g : Unit → Task α Unit} (hg : Conduct a false seen (g ())) :
    Conduct a owes seen (forgetSimilar.bind g) := by
  refine .acquire (.clear (fun w => by simp only [refuses_similarity, Bool.false_eq_true, if_false]; rfl) fun r => ?_)
  cases r with
  | ok n => exact .release hg
  | error e => exact .release (.fail e)

/-- Bookmarks are kept. -/
theorem keepAll {bs : List Bookmark} {g : Nat → Task α Unit} (hg : ∀ n, Conduct a true seen (g n)) :
    Conduct a owes seen ((Engine.keepAll bs).bind g) := by
  refine .write (.inl rfl) (fun w => ⟨rfl, rfl, rfl⟩) fun r => ?_
  cases r with
  | ok n => exact hg n
  | error e => exact .fail e

/-- The change of a bookmark in the store. -/
theorem change {x : Write} {g : Unit → Task α Unit} (hg : Conduct a true seen (g ())) :
    Conduct a owes seen ((x.task : Task α Unit).bind g) := by
  cases x with
  | keep b =>
    refine .act .refl fun w => ?_
    cases w.faultOf .upsertOne with
    | some message => exact .fail _
    | none =>
      show Conduct a owes seen (((Engine.keepAll [b]).bind fun _ => Task.done ()).bind g)
      rw [Task.bind_assoc]
      exact .keepAll fun _ => hg
  | delete id =>
    refine .write (.inr rfl) (fun w => ⟨rfl, rfl, rfl⟩) fun r => ?_
    cases r with
    | ok deleted => exact hg
    | error e => exact .fail e

end Conduct

section Activities

variable {a : Activity} {owes : Bool} {seen : Option Shelf}

theorem conduct_changeIndex (f : Index → Index × Except Fault Unit) (save : Bool) :
    Conduct a owes seen (changeIndex f save : Task α Unit) := by
  refine .after plain_loadIndex fun i => .after (.locked (.bind (plain_changeEdition i f) fun _ => ?_)) fun _ => ?_
  · cases save
    · exact .done _
    · exact plain_saveEdition i
  · rw [← Task.bind_done forgetSimilar]
    exact .forget .paid

theorem conduct_rebuildIndex {g : Nat → Task α Unit} (hg : ∀ n, Conduct a false seen (g n)) :
    Conduct a owes seen (rebuildIndex.bind g) := by
  have hlocked : Plain (Task.locked (buildIndex.bind fun ix =>
      (Task.act (·.publish ix) Task.done).bind fun _ => Task.done ix) : Task α Index) :=
    .locked (.bind plain_buildIndex fun ix => .bind (plain_publish ix) fun _ => .done ix)
  rw [show rebuildIndex.bind g = (Task.locked (buildIndex.bind fun ix =>
    (Task.act (·.publish ix) Task.done).bind fun _ => Task.done ix)).bind fun ix =>
      (forgetSimilar.bind fun _ => Task.done ix.size).bind g from Task.bind_assoc _ _ _]
  refine .after hlocked fun ix => ?_
  rw [Task.bind_assoc]
  exact .forget (hg _)

/-- A removal forgets the pairs if it finds the bookmark in the index. -/
theorem conduct_removeBookmark (ha : a.IsRemoval) (id : String) (save : Bool) :
    Conduct a owes seen ((removeBookmark id save).bind fun _ => Task.done () : Task α Unit) := by
  simp only [removeBookmark, bind, pure, Task.bind_assoc]
  refine .after plain_loadIndex fun i => .after (.locked (.bind (.look _) fun removed =>
    .bind (plain_changeEdition i _) fun _ => ?_)) fun removed => ?_
  · cases removed && save
    · exact .done _
    · exact .bind (plain_saveEdition i) fun _ => .done _
  · cases removed
    · exact .done fun _ => ha
    · rw [if_pos rfl, Task.bind_assoc]
      exact .forget .paid

theorem conduct_task (c : IndexChange) (save : Bool) :
    Conduct (.report c save) owes seen (c.task save : Task α Unit) := by
  cases c with
  | rebuild => exact conduct_rebuildIndex fun _ => .paid
  | add b | update b => exact conduct_changeIndex _ save
  | remove id => exact conduct_removeBookmark ⟨id, save, rfl⟩ id save

/-- Pairs are computed of the bookmarks that were read. -/
theorem conduct_computePairs (ha : a.IsFind) (t : Number) (m : Int) :
    Conduct a false seen ((computePairs (pairsKeyOf t) t m).bind fun _ => Task.done () : Task α Unit) := by
  refine .read (fun w => ?_) fun s => .pause fun r => ?_
  · rw [mapM_reread]
  · cases r with
    | error e => exact .fail e
    | ok _ =>
      refine .acquire (.act .refl fun w => .act .refl fun w' =>
        .cache t m w.now (some w'.settings.similarity.pairsLifetime) ha (fun v => ?_) fun r => ?_)
      · dsimp only
        split
        · exact .inr rfl
        · exact .inl rfl
      · cases r <;> exact .release .paid

/-- **Every activity conducts itself.** -/
theorem conduct_activity (a : Activity) : Conduct a false none (a.task : Task α Unit) := by
  cases a with
  | find threshold maxPairs useCache =>
    have hfind : (Activity.find threshold maxPairs useCache).IsFind := ⟨_, _, _, rfl⟩
    refine .act .refl fun w => ?_
    show Conduct _ _ _ (((Task.ofExcept _ : Task α _).bind _).bind _)
    rw [Task.bind_assoc]
    refine .after (.ofExcept _) fun _ => ?_
    cases useCache with
    | false => exact conduct_computePairs hfind _ _
    | true =>
      show Conduct _ _ _ (((cachedPairs _ _ : Task α _).bind _).bind _)
      rw [Task.bind_assoc]
      refine .after (plain_cachedPairs _ _) fun found => ?_
      cases found with
      | some ps => exact .paid
      | none => exact conduct_computePairs hfind _ _
  | report c save =>
    cases hx : c.write? with
    | none =>
      rw [Activity.task, hx]
      exact .pause fun r => by
        cases r with
        | ok _ => exact conduct_task c save
        | error e => exact .fail e
    | some x =>
      rw [Activity.task, hx]
      refine .change (.pause fun r => ?_)
      cases r with
      | ok _ => exact conduct_task c save
      | error e => exact .fail e
  | refill bs =>
    refine .keepAll fun _ => .pause fun r => ?_
    cases r with
    | ok _ => exact conduct_rebuildIndex fun _ => .paid
    | error e => exact .fail e

end Activities

/-! ## Turns -/

/-- Bookmarks are kept or deleted in the turn. -/
def Turn.Writes (x : Turn α) : Prop := x.calls .upsertMany = true ∨ x.calls .delete = true

/-- An entry is of pairs of the bookmarks on a shelf. -/
def IsPairsOf (e : CacheEntry) (s : Shelf) : Prop := ∃ t m since, e.key = pairsKeyOf t ∧
  e.content = .value (pairsEntry (similarPairs s.all t.toFloat m) m since)

/-- What an activity does in a turn: what it owes and has seen before and after it. -/
inductive Deed (a : Activity) (x : Turn α) : Bool → Option Shelf → Bool → Option Shelf → Prop
  | idle {owes : Bool} {seen : Option Shelf} (h : Leaves x.before x.after) (hc : x.calls .clearCache = false) :
      Deed a x owes seen owes seen
  | read {owes : Bool} {seen : Option Shelf} (h : Leaves x.before x.after) (hc : x.calls .clearCache = false)
      (hread : x.calls .getAll = true) : Deed a x owes seen owes (some x.before.store.shelf)
  | write {owes : Bool} {seen : Option Shelf} (h : PairsWithin x.before.store.cache x.after.store.cache)
      (hc : x.calls .clearCache = false) (hwrites : x.Writes) : Deed a x owes seen true seen
  | clear {owes : Bool} {seen : Option Shelf} (hshelf : x.after.store.shelf = x.before.store.shelf)
      (h : NoPairs x.after.store.cache) (hc : x.calls .clearCache = true) : Deed a x owes seen false seen
  | cache {owes : Bool} {s : Shelf} (ha : a.IsFind) (hshelf : x.after.store.shelf = x.before.store.shelf)
      (h : ∀ e ∈ x.after.store.cache.entries, Cache.keyMatches similarityPattern e.key = true →
        e ∈ x.before.store.cache.entries ∨ IsPairsOf e s)
      (hc : x.calls .clearCache = false) (hset : x.calls .setCache = true) : Deed a x owes (some s) owes (some s)

namespace Conduct

variable {a : Activity} {owes : Bool} {seen : Option Shelf} {t t' : Task α Unit}

/-- Only a removal is done and still owes something. -/
theorem isRemoval_of_done (h : Conduct a true seen t) (ht : t.isDone = true) : a.IsRemoval := by
  cases h with
  | done h => exact h rfl
  | _ => cases ht

/-- Up to the next place where others may run nothing is done. -/
theorem settle (h : Conduct a owes seen t) (w : State α) :
    Conduct a owes seen (t.settle w).1 ∧ Leaves w (t.settle w).2 := by
  induction h generalizing w with
  | done h => exact ⟨.done h, .refl w⟩
  | fail e => exact ⟨.fail e, .refl w⟩
  | act hf _ ih => exact ⟨(ih w _).1, (hf w).trans (ih w _).2⟩
  | acquire h => exact ⟨.acquire h, .refl w⟩
  | release _ ih =>
    have hunlock : Leaves w w.unlock := ⟨rfl, rfl, rfl, .refl _⟩
    exact ⟨(ih _).1, hunlock.trans (ih _).2⟩
  | pause h => exact ⟨.pause h, .refl w⟩
  | store hop hf h => exact ⟨.store hop hf h, .refl w⟩
  | read hf h => exact ⟨.read hf h, .refl w⟩
  | write hop hf h => exact ⟨.write hop hf h, .refl w⟩
  | clear hf h => exact ⟨.clear hf h, .refl w⟩
  | cache t m since lifetime ha hf h => exact ⟨.cache t m since lifetime ha hf h, .refl w⟩

/-- What is done up to the next place where others may run, after a call of the store that is in order. -/
theorem called {δ : Type} {op : StoreOperation} {f : State α → Except Fault δ × State α}
    {k : Except Fault δ → Task α Unit} (hr : w.Ready op) (h : Conduct a owes seen (k (f w).1))
    (ht : (Task.call (Task.calling op f) k).turn w = some (t', w')) : Conduct a owes seen t' ∧ Leaves (f w).2 w' := by
  have hturn : (k (Task.calling op f w).1).settle (Task.calling op f w).2 = (t', w') := Option.some.inj ht
  rw [Task.calling_of_ready hr] at hturn
  have hsettle := h.settle (f w).2
  rwa [hturn] at hsettle

/-- **What an activity does in its turn is a deed.** -/
theorem turn (h : Conduct a owes seen t) (hw : ∀ op, w.Ready op) (ht : t.turn w = some (t', w')) (k : Nat) :
    (∀ op, w'.Ready op) ∧
      ∃ owes' seen', Conduct a owes' seen' t' ∧ Deed a ⟨k, t.calls, w, w'⟩ owes seen owes' seen' := by
  have hidle : ∀ {v : State α} {u : Task α Unit}, Leaves w v → Conduct a owes seen u → u.settle v = (t', w') →
      t.calls .clearCache = false → (∀ op, w'.Ready op) ∧
        ∃ owes' seen', Conduct a owes' seen' t' ∧ Deed a ⟨k, t.calls, w, w'⟩ owes seen owes' seen' := by
    intro v u hv hu hsettle hc
    obtain ⟨hconduct, hleaves⟩ := hu.settle v
    rw [hsettle] at hconduct hleaves
    exact ⟨fun op => (hv.trans hleaves).ready.mpr (hw op), _, _, hconduct, .idle (hv.trans hleaves) hc⟩
  cases h with
  | done | fail => cases ht
  | act hf h => exact hidle (.refl w) (.act hf h) (Option.some.inj ht) rfl
  | release h => exact hidle (.refl w) (.release h) (Option.some.inj ht) rfl
  | acquire h =>
    simp only [Task.turn] at ht
    split at ht
    · cases ht
    · exact hidle (v := w.lock) ⟨rfl, rfl, rfl, .refl _⟩ h (Option.some.inj ht) rfl
  | pause h => exact hidle (.refl w) (h _) (Option.some.inj ht) rfl
  | @store _ _ _ op f k hop hf h =>
    exact hidle (.calling hf w) (h _) (Option.some.inj ht) (Task.calls_calling_of_ne hop f k)
  | @read _ _ f k hf h =>
    have hne : StoreOperation.getAll ≠ .clearCache := by decide
    obtain ⟨hconduct, hleaves⟩ := called (hw _) (by rw [hf]; exact h w.store.shelf) ht
    rw [hf] at hleaves
    exact ⟨fun op => hleaves.ready.mpr (hw op), _, _, hconduct,
      .read hleaves (Task.calls_calling_of_ne hne f k) (Task.calls_calling_self .getAll f k)⟩
  | @write _ _ _ op f k hop hf h =>
    have hcalls := Task.calls_calling_self op f k
    have hne : op ≠ .clearCache := by rcases hop with rfl | rfl <;> decide
    obtain ⟨hconduct, hleaves⟩ := called (hw _) (h _) ht
    have hwritten : ∀ op, (f w).2.Ready op := by
      intro op
      unfold State.Ready State.faultOf
      rw [(hf w).faults, (hf w).isOpen]
      exact hw op
    refine ⟨fun op => hleaves.ready.mpr (hwritten op), _, _, hconduct, .write ?_ (Task.calls_calling_of_ne hne f k) ?_⟩
    · exact (hf w).cache ▸ hleaves.pairs
    · rcases hop with rfl | rfl
      · exact .inl hcalls
      · exact .inr hcalls
  | @clear _ _ _ f k hf h =>
    obtain ⟨hconduct, hleaves⟩ := called (hw _) (h _) ht
    rw [hf] at hleaves
    exact ⟨fun op => hleaves.ready.mpr (hw op), _, _, hconduct,
      .clear hleaves.shelf ((noPairs_clear _).within hleaves.pairs) (Task.calls_calling_self .clearCache f k)⟩
  | @cache _ s u m since lifetime _ f k ha hf h =>
    have hne : StoreOperation.setCache ≠ .clearCache := by decide
    obtain ⟨hconduct, hleaves⟩ := called (hw _) (h _) ht
    rcases hf w with hkept | hset <;> rw [‹(f w).2 = _›] at hleaves
    · exact ⟨fun op => hleaves.ready.mpr (hw op), _, _, hconduct, .cache ha hleaves.shelf
        (fun e he hk => .inl (hleaves.pairs e he hk)) (Task.calls_calling_of_ne hne f k)
        (Task.calls_calling_self .setCache f k)⟩
    refine ⟨fun op => hleaves.ready.mpr (hw op), _, _, hconduct, .cache ha hleaves.shelf (fun e he hk => ?_)
      (Task.calls_calling_of_ne hne f k) (Task.calls_calling_self .setCache f k)⟩
    rcases Cache.mem_set (hleaves.pairs e he hk) with rfl | he
    · exact .inr ⟨u, m, since, rfl, rfl⟩
    · exact .inl he

end Conduct

end Shelfmark.Engine
