import Shelfmark.Proofs.Engine.Conduct
import Shelfmark.Proofs.History

/-!
# Outdated pairs

Similar pairs are looked for while bookmarks are changed and the changes reported, in turns of any order.  What is
cached in the end is told from the chronicle of these turns (`Chronicle`): pairs were there at first or were cached by
an activity that had read the bookmarks before (`Origin`), and since then none were forgotten.

So in the end the cached pairs are those of the bookmarks in the store (`interleaved_pairs_current`), provided that

- pairs of bookmarks that were changed since they were read are forgotten after they were cached (`CachedInTime`), and
- pairs are forgotten after a bookmark was removed (`RemovalsNoticed`).

The engine sees to neither: it reads the bookmarks without the lock under which it caches the pairs, and it forgets no
pairs where a bookmark is removed that is not in its index (`not_interleaved_pairs_current`).
-/

namespace Shelfmark.Engine

open Similarity

variable {α : Type} {w₀ : State α} {as : List Activity} {a : Activity} {k : Nat} {s s' : Shelf} {e : CacheEntry}
  {xs : List (Turn α)} {x y : Turn α} {owes owes' : Bool} {seen seen' : Option Shelf}

/-! ## Changing, reading, caching, forgetting -/

/-- All cached pairs are those of the bookmarks on a shelf. -/
def PairsOf (c : Cache) (s : Shelf) : Prop := ∀ e ∈ c.entries, pairsKey.toList <+: e.key.toList → IsPairsOf e s

/-- Where no pairs are cached, they are those of any bookmarks. -/
theorem PairsOf.of_none {c : Cache} (h : ∀ e ∈ c.entries, ¬pairsKey.toList <+: e.key.toList) (s : Shelf) :
    PairsOf c s :=
  fun e he hkey => absurd hkey (h e he)

/-- Pairs that were found are cached. -/
theorem PairsOf.withPairs {w w' : State α} {t : Number} {m : Int} (h : PairsOf w.store.cache w.store.shelf)
    (hw' : w' = w.withPairs (pairsKeyOf t) (similarPairs w.store.shelf.all t.toFloat m) m) :
    PairsOf w'.store.cache w'.store.shelf := by
  subst hw'
  rcases withPairs_cases w (pairsKeyOf t) (similarPairs w.store.shelf.all t.toFloat m) m with hset | hkept
  · rw [hset]
    intro e he hkey
    rcases Cache.mem_set he with rfl | he
    · exact ⟨t, m, w.now, rfl, rfl⟩
    · exact h e he hkey
  · rw [hkept]
    exact h

/-- The bookmarks are changed in the turn. -/
def Turn.Changes (x : Turn α) : Prop := x.after.store.shelf ≠ x.before.store.shelf

/-- The cached pairs are forgotten in the turn. -/
def Turn.Forgets (x : Turn α) : Prop := x.calls .clearCache = true

instance (x : Turn α) : Decidable x.Writes :=
  inferInstanceAs (Decidable (x.calls .upsertMany = true ∨ x.calls .delete = true))

instance (x : Turn α) : Decidable x.Forgets := inferInstanceAs (Decidable (x.calls .clearCache = true))

theorem Turn.not_forgets (h : x.calls .clearCache = false) : ¬x.Forgets := by
  rw [Turn.Forgets, h]
  exact Bool.false_ne_true

/-- An activity that looks for similar pairs reads the bookmarks in one turn, and caches pairs of them in another. -/
structure Finding (as : List Activity) (p x : Turn α) : Prop where
  isFind : ∃ a ∈ as[x.task]?, a.IsFind
  task : p.task = x.task
  reads : p.calls .getAll = true
  caches : x.calls .setCache = true

/-- Pairs of bookmarks that were changed since they were read are forgotten after they were cached. -/
def CachedInTime (as : List Activity) (xs : List (Turn α)) : Prop :=
  ∀ l₁ p l₂ x l₃, xs = l₁ ++ p :: (l₂ ++ x :: l₃) → Finding as p x → (∃ q ∈ l₂, q.Changes) → ∃ y ∈ l₃, y.Forgets

/-- After a bookmark was removed from the store, pairs are forgotten. -/
def RemovalsNoticed (as : List Activity) (xs : List (Turn α)) : Prop :=
  ¬Lasts (fun q => (∃ a ∈ as[q.task]?, a.IsRemoval) ∧ q.Changes) Turn.Forgets xs

/-! ## Deeds -/

namespace Deed

variable (h : Deed a x owes seen owes' seen')
include h

/-- Whoever changes bookmarks owes something. -/
theorem owes_of_changes (hx : x.Changes) : owes' = true := by
  cases h with
  | idle hleaves | read hleaves => exact absurd hleaves.shelf hx
  | write => rfl
  | clear hshelf | cache _ hshelf => exact absurd hshelf hx

/-- Bookmarks are changed by keeping or deleting some. -/
theorem writes_of_changes (hx : x.Changes) : x.Writes := by
  cases h with
  | idle hleaves | read hleaves => exact absurd hleaves.shelf hx
  | write _ _ hwrites => exact hwrites
  | clear hshelf | cache _ hshelf => exact absurd hshelf hx

/-- Whoever owes nothing owed nothing before, unless the pairs are forgotten in the turn. -/
theorem owed_nothing (hx : ¬x.Forgets) (hpaid : owes' = false) : owes = false := by
  cases h with
  | idle | read | cache => exact hpaid
  | write => cases hpaid
  | clear _ _ hc => exact absurd hc hx

/-- What was seen was seen before, or is read in the turn. -/
theorem seen_cases (hs : s ∈ seen') : s ∈ seen ∨ x.calls .getAll = true ∧ x.after.store.shelf = s := by
  cases h with
  | read hleaves _ hread =>
    cases hs
    exact .inr ⟨hread, hleaves.shelf⟩
  | idle | write | clear | cache => exact .inl hs

/-- Cached pairs were cached before and are not forgotten in the turn, or they are cached in it. -/
theorem pairs_cases (he : e ∈ x.after.store.cache.entries) (hk : pairsKey.toList <+: e.key.toList) :
    ¬x.Forgets ∧ (e ∈ x.before.store.cache.entries ∨
      ¬x.Changes ∧ a.IsFind ∧ x.calls .setCache = true ∧ ∃ s ∈ seen, IsPairsOf e s) := by
  have hmatch := keyMatches_of_begins hk
  cases h with
  | idle hleaves hc | read hleaves hc => exact ⟨Turn.not_forgets hc, .inl (hleaves.pairs e he hmatch)⟩
  | write hwithin hc => exact ⟨Turn.not_forgets hc, .inl (hwithin e he hmatch)⟩
  | clear _ hnone => exact absurd hmatch (by rw [hnone e he]; exact Bool.false_ne_true)
  | cache ha hshelf hentries hc hset =>
    refine ⟨Turn.not_forgets hc, (hentries e he hmatch).imp_right fun hpairs => ?_⟩
    exact ⟨fun hx => hx hshelf, ha, hset, _, rfl, hpairs⟩

end Deed

/-! ## The chronicle -/

/-- A task has read the bookmarks on a shelf in one of the turns. -/
def ReadBy (k : Nat) (s : Shelf) (xs : List (Turn α)) : Prop :=
  ∃ l₁ p l₂, xs = l₁ ++ p :: l₂ ∧ p.task = k ∧ p.calls .getAll = true ∧ p.after.store.shelf = s

/-- A task is at a place in its activity: what it has seen it has read, and if it owes nothing, cached pairs were
forgotten after it changed bookmarks. -/
def Standing (k : Nat) (xs : List (Turn α)) (a : Activity) (t : Task α Unit) : Prop :=
  ∃ owes seen, Conduct a owes seen t ∧ (∀ s ∈ seen, ReadBy k s xs) ∧
    (owes = false → ¬Lasts (fun q => q.task = k ∧ q.Changes) Turn.Forgets xs)

/-- Where cached pairs come from. -/
inductive Origin (as : List Activity) (w₀ : State α) (xs : List (Turn α)) (e : CacheEntry) : Prop
  /-- They were there at first, and none were forgotten. -/
  | start (he : e ∈ w₀.store.cache.entries) (hkept : ∀ y ∈ xs, ¬y.Forgets)
  /-- They are of the bookmarks that were read before they were cached, and none were forgotten since. -/
  | cached {l₁ l₂ l₃ : List (Turn α)} {p x : Turn α} (hxs : xs = l₁ ++ p :: (l₂ ++ x :: l₃)) (h : Finding as p x)
      (hx : ¬x.Changes) (he : IsPairsOf e p.after.store.shelf) (hkept : ∀ y ∈ l₃, ¬y.Forgets)

/-- What the turns that were recorded tell of the tasks, the bookmarks and the cached pairs. -/
structure Chronicle (as : List Activity) (w₀ : State α) (c : Course α Unit) : Prop where
  length : c.tasks.length = as.length
  ready : ∀ op, c.state.Ready op
  task_lt : ∀ x ∈ c.turns, x.task < as.length
  unchanged : (∀ q ∈ c.turns, ¬q.Changes) → c.state.store.shelf = w₀.store.shelf
  writes : ∀ x ∈ c.turns, x.Changes → x.Writes
  lasting : ∀ s, Lasts (·.after.store.shelf = s) Turn.Changes c.turns → c.state.store.shelf = s
  standing : ∀ k a t, as[k]? = some a → c.tasks[k]? = some t → Standing k c.turns a t
  origin : ∀ e ∈ c.state.store.cache.entries, pairsKey.toList <+: e.key.toList → Origin as w₀ c.turns e

theorem ReadBy.snoc (h : ReadBy k s xs) (y : Turn α) : ReadBy k s (xs ++ [y]) := by
  obtain ⟨l₁, p, l₂, rfl, hp⟩ := h
  exact ⟨l₁, p, l₂ ++ [y], by simp, hp⟩

/-- The turn of another task. -/
theorem Standing.snoc {t : Task α Unit} (h : Standing k xs a t) (hy : y.task ≠ k) : Standing k (xs ++ [y]) a t := by
  obtain ⟨owes, seen, hconduct, hread, hpaid⟩ := h
  refine ⟨owes, seen, hconduct, fun s hs => (hread s hs).snoc y, fun howes hlasts => ?_⟩
  rcases lasts_snoc.mp hlasts with ⟨htask, _⟩ | ⟨hlasts, _⟩
  · exact hy htask
  · exact hpaid howes hlasts

/-- The turn of the task itself. -/
theorem Standing.own {t : Task α Unit} (h : Conduct a owes' seen' t) (hdeed : Deed a x owes seen owes' seen')
    (hread : ∀ s ∈ seen, ReadBy x.task s xs)
    (hpaid : owes = false → ¬Lasts (fun q => q.task = x.task ∧ q.Changes) Turn.Forgets xs) :
    Standing x.task (xs ++ [x]) a t := by
  refine ⟨owes', seen', h, fun s hs => ?_, fun howes hlasts => ?_⟩
  · rcases hdeed.seen_cases hs with hs | ⟨hcalls, hs⟩
    · exact (hread s hs).snoc x
    · exact ⟨xs, x, [], rfl, rfl, hcalls, hs⟩
  · rcases lasts_snoc.mp hlasts with ⟨_, hchanges⟩ | ⟨hlasts, hkept⟩
    · exact absurd (howes.symm.trans (hdeed.owes_of_changes hchanges)) Bool.false_ne_true
    · exact hpaid (hdeed.owed_nothing hkept howes) hlasts

/-- Pairs that are not forgotten in a turn stay where they came from. -/
theorem Origin.snoc (h : Origin as w₀ xs e) (hy : ¬y.Forgets) : Origin as w₀ (xs ++ [y]) e := by
  have hgrown : ∀ {l : List (Turn α)}, (∀ z ∈ l, ¬z.Forgets) → ∀ z ∈ l ++ [y], ¬z.Forgets := by
    intro l hl z hz
    rcases List.mem_append.mp hz with hz | hz
    · exact hl z hz
    · exact List.mem_singleton.mp hz ▸ hy
  cases h with
  | start he hkept => exact .start he (hgrown hkept)
  | @cached l₁ l₂ l₃ p x hxs h hx he hkept =>
    have hsnoc : xs ++ [y] = l₁ ++ p :: (l₂ ++ x :: (l₃ ++ [y])) := by simp [hxs]
    exact .cached hsnoc h hx he (hgrown hkept)

/-- Pairs that are cached after a turn were cached before or are cached in it. -/
theorem Origin.own (hdeed : Deed a x owes seen owes' seen') (ha : as[x.task]? = some a)
    (hread : ∀ s ∈ seen, ReadBy x.task s xs)
    (h : ∀ e ∈ x.before.store.cache.entries, pairsKey.toList <+: e.key.toList → Origin as w₀ xs e)
    (he : e ∈ x.after.store.cache.entries) (hkey : pairsKey.toList <+: e.key.toList) :
    Origin as w₀ (xs ++ [x]) e := by
  obtain ⟨hkept, hold | ⟨hsame, hfind, hset, s, hs, hpairs⟩⟩ := hdeed.pairs_cases he hkey
  · exact (h e hold hkey).snoc hkept
  · obtain ⟨l₁, p, l₂, rfl, htask, hcalls, rfl⟩ := hread s hs
    have hsnoc : (l₁ ++ p :: l₂) ++ [x] = l₁ ++ p :: (l₂ ++ x :: []) := by rw [List.append_assoc, List.cons_append]
    exact .cached hsnoc ⟨⟨a, ha, hfind⟩, htask, hcalls, hset⟩ hsame hpairs fun _ hy => absurd hy List.not_mem_nil

namespace Chronicle

variable {c : Course α Unit}

theorem start (as : List Activity) (hready : ∀ op, w₀.Ready op) : Chronicle as w₀ ⟨as.map (·.task), w₀, []⟩ where
  length := List.length_map _
  ready := hready
  task_lt _ hx := absurd hx List.not_mem_nil
  unchanged _ := rfl
  writes _ hx := absurd hx List.not_mem_nil
  lasting _ h := absurd h not_lasts_nil
  standing k a t ha ht := by
    rw [List.getElem?_map, ha] at ht
    cases ht
    exact ⟨false, none, conduct_activity a, fun _ hs => absurd hs (Option.not_mem_none _), fun _ => not_lasts_nil⟩
  origin e he _ := .start he fun _ hy => absurd hy List.not_mem_nil

/-- **A turn is recorded.** -/
theorem snoc (h : Chronicle as w₀ c) {t t' : Task α Unit} (ht : c.tasks[x.task]? = some t)
    (hbefore : x.before = c.state) (hturn : t.turn c.state = some (t', x.after)) (hcalls : x.calls = t.calls) :
    Chronicle as w₀ ⟨c.tasks.set x.task t', x.after, c.turns ++ [x]⟩ := by
  obtain ⟨hk, _⟩ := List.getElem?_eq_some_iff.mp ht
  obtain ⟨a, ha⟩ : ∃ a, as[x.task]? = some a := ⟨_, List.getElem?_eq_getElem (h.length ▸ hk)⟩
  obtain ⟨owes, seen, hconduct, hread, hpaid⟩ := h.standing _ a t ha ht
  obtain ⟨hready, owes', seen', hconduct', hdeed⟩ := hconduct.turn h.ready hturn x.task
  have hx : (⟨x.task, t.calls, c.state, x.after⟩ : Turn α) = x := by rw [← hcalls, ← hbefore]
  rw [hx] at hdeed
  have hshelf : ¬x.Changes → x.after.store.shelf = c.state.store.shelf := fun hsame => hbefore ▸ not_not.mp hsame
  have hmem : ∀ y ∈ c.turns ++ [x], y ∈ c.turns ∨ y = x := fun y hy => by simpa using hy
  refine ⟨(List.length_set ..).trans h.length, hready, fun y hy => ?_, fun hsame => ?_, fun y hy => ?_, fun s hs => ?_,
    fun k a' t₁ ha' ht₁ => ?_, fun e he hkey => ?_⟩
  · rcases hmem y hy with hy | rfl
    · exact h.task_lt y hy
    · exact h.length ▸ hk
  · exact (hshelf (hsame x (by simp))).trans (h.unchanged fun q hq => hsame q (by simp [hq]))
  · rcases hmem y hy with hy | rfl
    · exact h.writes y hy
    · exact hdeed.writes_of_changes
  · rcases lasts_snoc.mp hs with hs | ⟨hs, hsame⟩
    · exact hs
    · exact (hshelf hsame).trans (h.lasting s hs)
  · -- the task whose turn it was has moved on, the others stand where they stood
    by_cases hne : x.task = k
    · subst hne
      rw [List.getElem?_set_self hk] at ht₁
      cases ha.symm.trans ha'
      cases ht₁
      exact .own hconduct' hdeed hread hpaid
    · rw [List.getElem?_set_ne hne] at ht₁
      exact (h.standing k a' t₁ ha' ht₁).snoc hne
  · exact .own hdeed ha hread (hbefore ▸ h.origin) he hkey

/-- **Every course is recorded.** -/
theorem run (as : List Activity) (hready : ∀ op, w₀.Ready op) (ks : List Nat) :
    Chronicle as w₀ (Course.run Course.calm ks ⟨as.map (·.task), w₀, []⟩) := by
  refine Course.run_induction (start as hready) ?_ ks
  intro c k t t' w' h ht hturn
  exact h.snoc (x := ⟨k, t.calls, c.state, w'⟩) ht rfl hturn rfl

section Ended

variable (h : Chronicle as w₀ c) (hdone : ∀ t ∈ c.tasks, t.isDone = true)
  (hremovals : RemovalsNoticed as c.turns)
include h hdone hremovals

/-- In the end, pairs were forgotten after every change. -/
theorem forgotten : ¬Lasts Turn.Changes Turn.Forgets c.turns := by
  rintro ⟨l, q, l', hturns, hq, hkept⟩
  have hk : q.task < as.length := h.task_lt q (by rw [hturns]; simp)
  have ha : as[q.task]? = some as[q.task] := List.getElem?_eq_getElem hk
  obtain ⟨t, ht⟩ : ∃ t, c.tasks[q.task]? = some t := ⟨_, List.getElem?_eq_getElem (h.length.symm ▸ hk)⟩
  obtain ⟨owes, seen, hconduct, _, hpaid⟩ := h.standing _ _ _ ha ht
  have ht' := hdone _ (List.mem_of_getElem? ht)
  cases owes with
  | false => exact hpaid rfl ⟨l, q, l', hturns, ⟨rfl, hq⟩, hkept⟩
  | true => exact hremovals ⟨l, q, l', hturns, ⟨⟨_, ha, hconduct.isRemoval_of_done ht'⟩, hq⟩, hkept⟩

/-- **In the end, the cached pairs are those of the bookmarks in the store.** -/
theorem pairsOf (hpairs : PairsOf w₀.store.cache w₀.store.shelf) (hcached : CachedInTime as c.turns) :
    PairsOf c.state.store.cache c.state.store.shelf := by
  have hforgotten := h.forgotten hdone hremovals
  intro e he hkey
  cases h.origin e he hkey with
  | start hstart hkept =>
    have hsame : ∀ q ∈ c.turns, ¬q.Changes := by
      intro q hq hchanges
      obtain ⟨l, l', hturns⟩ := List.append_of_mem hq
      exact hforgotten ⟨l, q, l', hturns, hchanges, fun y hy => hkept y (by rw [hturns]; simp [hy])⟩
    rw [h.unchanged hsame]
    exact hpairs e hstart hkey
  | @cached l₁ l₂ l₃ p x hturns hfinding hx hpairs' hkept =>
    -- bookmarks were changed neither between reading and caching nor later
    have hsame : ∀ q ∈ l₂ ++ x :: l₃, ¬q.Changes := by
      intro q hq hchanges
      rcases List.mem_append.mp hq with hq | hq
      · obtain ⟨y, hy, hforgets⟩ := hcached l₁ p l₂ x l₃ hturns hfinding ⟨q, hq, hchanges⟩
        exact hkept y hy hforgets
      · rcases List.mem_cons.mp hq with rfl | hq
        · exact hx hchanges
        · obtain ⟨l, l', rfl⟩ := List.append_of_mem hq
          have hsplit : c.turns = (l₁ ++ p :: (l₂ ++ x :: l)) ++ q :: l' := by rw [hturns]; simp
          exact hforgotten ⟨_, q, l', hsplit, hchanges, fun y hy => hkept y (by simp [hy])⟩
    rw [h.lasting _ ⟨l₁, p, _, hturns, rfl, hsame⟩]
    exact hpairs'

end Ended

/-- All is in time where the bookmarks are read only after the last of them is kept or deleted, and pairs are forgotten
after that, too. -/
theorem inTime (h : Chronicle as w₀ c) {us vs : List (Turn α)} (hturns : c.turns = us ++ vs)
    (hus : ∀ p ∈ us, p.calls .getAll = false) (hvs : ∀ q ∈ vs, ¬q.Writes) (hforgets : ∃ y ∈ vs, y.Forgets) :
    CachedInTime as c.turns ∧ RemovalsNoticed as c.turns := by
  have hsame : ∀ q ∈ vs, ¬q.Changes := fun q hq hchanges => hvs q hq (h.writes q (by rw [hturns]; simp [hq]) hchanges)
  constructor
  · rintro l₁ p l₂ x l₃ hsplit hfinding ⟨q, hq, hchanges⟩
    rcases mem_of_parts (hturns.symm.trans hsplit) with ⟨hp, _⟩ | ⟨_, hlater⟩
    · cases hfinding.reads.symm.trans (hus p hp)
    · exact absurd hchanges (hsame q (hlater (by simp [hq])))
  · rintro ⟨l, q, l', hsplit, ⟨_, hchanges⟩, hkept⟩
    rcases mem_of_parts (hturns.symm.trans hsplit) with ⟨_, hlater⟩ | ⟨hq, _⟩
    · obtain ⟨y, hy, hyforgets⟩ := hforgets
      exact hkept y (hlater hy) hyforgets
    · exact hsame q hq hchanges

end Chronicle

/-- **No interleaving leaves outdated pairs in the cache**, as long as pairs of bookmarks that were changed since they
were read are forgotten after they were cached, and pairs are forgotten after a bookmark was removed. -/
theorem interleaved_pairs_current {c : Course α Unit} {ks : List Nat}
    (hc : c = Course.run Course.calm ks ⟨as.map (·.task), w₀, []⟩) (hready : ∀ op, w₀.Ready op)
    (hpairs : PairsOf w₀.store.cache w₀.store.shelf) (hdone : ∀ t ∈ c.tasks, t.isDone = true)
    (hcached : CachedInTime as c.turns) (hremovals : RemovalsNoticed as c.turns) :
    PairsOf c.state.store.cache c.state.store.shelf := by
  have hchronicle : Chronicle as w₀ c := hc ▸ Chronicle.run as hready ks
  exact hchronicle.pairsOf hdone hremovals hpairs hcached

theorem ready_of_calm {w : State α} (hfaults : w.faults = []) (hopen : w.store.isOpen = true) (op : StoreOperation) :
    w.Ready op :=
  ⟨by rw [State.faultOf, hfaults]; rfl, hopen⟩

/-- A bookmark is removed while similar pairs are looked for.  They are read after it was deleted and cached after the
pairs are forgotten. -/
theorem interleaved_pairs_current_sample :
    let a : Bookmark := { id := "a", url := "a", title := "Rust" }
    let b : Bookmark := { id := "b", url := "b", title := "Lean" }
    let as : List Activity := [.find (some (.int 0)) (some 100) true, .report (.remove "a") true]
    let w₀ : State Unit := (loadIndex.run { store := { shelf := ({} : Shelf).put a } }).2
    let w := ((addBookmark b true).run ((keepOne b).run w₀).2).2
    let ks := [0, 1, 0, 1, 1, 1, 0, 1, 1, 0, 0, 0]
    let c := Course.run Course.calm ks ⟨as.map (·.task), w, []⟩
    (∀ op, w.Ready op) ∧ PairsOf w.store.cache w.store.shelf ∧ (∀ t ∈ c.tasks, t.isDone = true) ∧
      CachedInTime as c.turns ∧ RemovalsNoticed as c.turns ∧ PairsOf c.state.store.cache c.state.store.shelf ∧
      c.state.store.cache.entries.map (·.key) = [indexKey, pairsKeyOf (.int 0)] ∧
      c.state.store.shelf.bookmarks.map (·.id) = ["b"] := by
  intro a b as w₀ w ks c
  obtain ⟨hcalm, hnone⟩ : (w.faults = [] ∧ w.store.isOpen = true) ∧
      ∀ e ∈ w.store.cache.entries, ¬pairsKey.toList <+: e.key.toList := by decide +kernel
  obtain ⟨hdone, hus, hvs, hforgets, hkeys, hids⟩ : (∀ t ∈ c.tasks, t.isDone = true) ∧
      (∀ p ∈ c.turns.take 2, p.calls .getAll = false) ∧ (∀ q ∈ c.turns.drop 2, ¬q.Writes) ∧
      (∃ y ∈ c.turns.drop 2, y.Forgets) ∧ c.state.store.cache.entries.map (·.key) = [indexKey, pairsKeyOf (.int 0)] ∧
      c.state.store.shelf.bookmarks.map (·.id) = ["b"] := by decide +kernel
  have hready := ready_of_calm hcalm.1 hcalm.2
  have hpairs := PairsOf.of_none hnone w.store.shelf
  have hchronicle : Chronicle as w c := Chronicle.run as hready ks
  obtain ⟨hcached, hremovals⟩ := hchronicle.inTime (List.take_append_drop 2 c.turns).symm hus hvs hforgets
  have hcurrent : PairsOf c.state.store.cache c.state.store.shelf :=
    interleaved_pairs_current rfl hready hpairs hdone hcached hremovals
  exact ⟨hready, hpairs, hdone, hcached, hremovals, hcurrent, hkeys, hids⟩

/-! ## Neither comes about by itself -/

/-- The limit that cached pairs were found with. -/
def limitOf? (e : CacheEntry) : Option Int :=
  match e.content with
  | .value v =>
    match v.get "max_pairs" with
    | .int m => some m
    | _ => none
  | .unreadable _ => none

/-- What is cached are the pairs of one shelf. -/
theorem IsPairsOf.unique {t : Number} {m : Int} (h : IsPairsOf e s) (h' : IsPairsOf e s') (ht : e.key = pairsKeyOf t)
    (hm : limitOf? e = some m) : similarPairs s.all t.toFloat m = similarPairs s'.all t.toFloat m := by
  obtain ⟨t₁, m₁, since, hkey, hcontent⟩ := h
  obtain ⟨t₂, m₂, since', hkey', hcontent'⟩ := h'
  obtain rfl := pairsKeyOf_injective (ht.symm.trans hkey)
  obtain rfl := pairsKeyOf_injective (ht.symm.trans hkey')
  have hlimit : limitOf? e = some m₁ := by
    rw [limitOf?, hcontent]
    rfl
  have hlimit' : limitOf? e = some m₂ := by
    rw [limitOf?, hcontent']
    rfl
  cases hm.symm.trans hlimit
  cases hm.symm.trans hlimit'
  have hentry := CacheContent.value.inj (hcontent.symm.trans hcontent')
  have hread := pairsIn_pairsEntry 0 "" (similarPairs s.all t.toFloat m) m m since
  have hread' := pairsIn_pairsEntry 0 "" (similarPairs s'.all t.toFloat m) m m since'
  rw [if_pos rfl] at hread hread'
  rw [← hentry, hread] at hread'
  exact Option.some.inj (Except.ok.inj hread')

/-- Pairs that are not those of the bookmarks that were there at first, nor of those that were read, are not cached. -/
theorem Chronicle.outdated {c : Course α Unit} {t : Number} {m : Int} (h : Chronicle as w₀ c)
    (hpairs : PairsOf w₀.store.cache w₀.store.shelf)
    (hcached : ∃ e ∈ c.state.store.cache.entries, e.key = pairsKeyOf t ∧ limitOf? e = some m)
    (hstart : similarPairs w₀.store.shelf.all t.toFloat m ≠ similarPairs c.state.store.shelf.all t.toFloat m)
    (hread : ∀ p ∈ c.turns, p.calls .getAll = true →
      similarPairs p.after.store.shelf.all t.toFloat m ≠ similarPairs c.state.store.shelf.all t.toFloat m) :
    ¬PairsOf c.state.store.cache c.state.store.shelf := by
  intro hcurrent
  obtain ⟨e, he, hkey, hlimit⟩ := hcached
  have hbegins : pairsKey.toList <+: e.key.toList := by
    rw [hkey, pairsKeyOf, String.toList_append]
    exact List.prefix_append _ _
  have hnow := hcurrent e he hbegins
  cases h.origin e he hbegins with
  | start hold => exact hstart ((hpairs e hold hbegins).unique hnow hkey hlimit)
  | cached hturns hfinding _ hold =>
    exact hread _ (by rw [hturns]; simp) hfinding.reads (hold.unique hnow hkey hlimit)

/-- The shelf holds two bookmarks, in the order of lists, without a common word. -/
def holdsTwoApart (s : Shelf) : Bool :=
  match s.bookmarks with
  | [a, b] => Shelf.listOrder a b && a.url != b.url && !a.weightedWords.isEmpty && !b.weightedWords.isEmpty &&
      a.weightedWords.all fun x => !b.weightedWords.contains x
  | _ => false

/-- Two bookmarks make a pair, if no similarity is asked for, and one makes none. -/
theorem similarPairs_ne (h : holdsTwoApart s = true) (h' : s'.bookmarks.length = 1) :
    similarPairs s.all (Number.int 0).toFloat 100 ≠ similarPairs s'.all (Number.int 0).toFloat 100 := by
  unfold holdsTwoApart at h
  split at h
  · rename_i a b hbookmarks
    simp only [Bool.and_eq_true, bne_iff_ne, Bool.not_eq_true', List.isEmpty_eq_false_iff, List.all_eq_true,
      List.contains_eq_mem, decide_eq_false_iff_not] at h
    obtain ⟨⟨⟨⟨horder, hurl⟩, ha⟩, hb⟩, hwords⟩ := h
    have hall : s.all = [a, b] := by
      rw [Shelf.all_of_pairwise (by rw [hbookmarks]; simpa using horder), hbookmarks]
    have hpairs : similarPairs [a, b] (Number.int 0).toFloat 100 = _ :=
      similarPairs_of_disjoint ha hb hwords hurl (by decide +kernel) (by decide)
    obtain ⟨b', hone⟩ := List.length_eq_one_iff.mp h'
    intro hequal
    rw [hall, hpairs] at hequal
    obtain ⟨hfirst, hsecond⟩ := mem_similarPairs (hequal ▸ List.mem_singleton_self _)
    rw [Shelf.mem_all, hone, List.mem_singleton] at hfirst hsecond
    exact hurl (congrArg (·.url) (hfirst.trans hsecond.symm))
  · cases h

/-- Bookmarks are read, then another one is added, and then the pairs are cached; or a bookmark is removed that is not
in the loaded index.  Either way, the pairs that are left in the cache are not those of the bookmarks in the store. -/
theorem not_interleaved_pairs_current :
    let a : Bookmark := { id := "a", url := "a", title := "Rust" }
    let b : Bookmark := { id := "b", url := "b", title := "Lean" }
    let w : State Unit := (loadIndex.run { store := { shelf := ({} : Shelf).put a } }).2
    let as : List Activity := [.find (some (.int 0)) (some 100) false, .report (.add b) true]
    let c := Course.run Course.calm [0, 0, 1, 1, 1, 1, 1, 1, 1, 0, 0, 0] ⟨as.map (·.task), w, []⟩
    let v : State Unit := ((keepOne b).run w).2
    let w' := v.withPairs (pairsKeyOf (.int 0)) (similarPairs v.store.shelf.all (Number.int 0).toFloat 100) 100
    let as' : List Activity := [.report (.remove "b") true]
    let c' := Course.run Course.calm [0, 0, 0] ⟨as'.map (·.task), w', []⟩
    (PairsOf w.store.cache w.store.shelf ∧ w.current = some 0 ∧ (∀ t ∈ c.tasks, t.isDone = true) ∧
      ¬PairsOf c.state.store.cache c.state.store.shelf) ∧
    PairsOf w'.store.cache w'.store.shelf ∧ w'.current = some 0 ∧ (∀ t ∈ c'.tasks, t.isDone = true) ∧
      ¬PairsOf c'.state.store.cache c'.state.store.shelf := by
  intro a b w as c v w' as' c'
  obtain ⟨hcalm, hnone, hloaded, hone⟩ : (w.faults = [] ∧ w.store.isOpen = true) ∧
      (∀ e ∈ w.store.cache.entries, ¬pairsKey.toList <+: e.key.toList) ∧ w.current = some 0 ∧
      w.store.shelf.bookmarks.length = 1 := by decide +kernel
  obtain ⟨hdone, hcached, htwo, hread⟩ : (∀ t ∈ c.tasks, t.isDone = true) ∧
      (∃ e ∈ c.state.store.cache.entries, e.key = pairsKeyOf (.int 0) ∧ limitOf? e = some 100) ∧
      holdsTwoApart c.state.store.shelf = true ∧
      ∀ p ∈ c.turns, p.calls .getAll = true → p.after.store.shelf.bookmarks.length = 1 := by decide +kernel
  -- there is room for the pairs, whatever they are
  have hspelled : ∀ b ∈ v.store.shelf.bookmarks, IsSpelled b := by decide +kernel
  have hw' : w' = v.withCache (v.store.cache.set v.now (pairsKeyOf (.int 0))
      (pairsEntry (similarPairs v.store.shelf.all (Number.int 0).toFloat 100) 100 v.now)
      (some v.settings.similarity.pairsLifetime)) := by
    refine withPairs_of_room (checkEntry_pairsEntry v.host (fun p hp => ?_) (by decide +kernel) (by decide +kernel) _)
    obtain ⟨hfirst, hsecond⟩ := mem_similarPairs hp
    exact ⟨hspelled _ (Shelf.mem_all.mp hfirst), hspelled _ (Shelf.mem_all.mp hsecond)⟩
  have hc' : c' = Course.run Course.calm [0, 0, 0] ⟨as'.map (·.task), w', []⟩ := rfl
  obtain ⟨hcalm', hnone', hloaded', htwo'⟩ : (w'.faults = [] ∧ w'.store.isOpen = true) ∧
      (∀ e ∈ v.store.cache.entries, ¬pairsKey.toList <+: e.key.toList) ∧ w'.current = some 0 ∧
      holdsTwoApart w'.store.shelf = true := by
    rw [hw']
    decide +kernel
  obtain ⟨hdone', hcached', hone', hread'⟩ : (∀ t ∈ c'.tasks, t.isDone = true) ∧
      (∃ e ∈ c'.state.store.cache.entries, e.key = pairsKeyOf (.int 0) ∧ limitOf? e = some 100) ∧
      c'.state.store.shelf.bookmarks.length = 1 ∧ ∀ p ∈ c'.turns, p.calls .getAll = false := by
    rw [hc', hw']
    decide +kernel
  have hpairs := PairsOf.of_none hnone w.store.shelf
  have hpairs' : PairsOf w'.store.cache w'.store.shelf :=
    (PairsOf.of_none hnone' v.store.shelf).withPairs rfl
  have hchronicle : Chronicle as w c := Chronicle.run as (ready_of_calm hcalm.1 hcalm.2) _
  have hchronicle' : Chronicle as' w' c' := Chronicle.run as' (ready_of_calm hcalm'.1 hcalm'.2) _
  have houtdated : ¬PairsOf c.state.store.cache c.state.store.shelf :=
    hchronicle.outdated hpairs hcached (similarPairs_ne htwo hone).symm
      fun p hp hcalls => (similarPairs_ne htwo (hread p hp hcalls)).symm
  have houtdated' : ¬PairsOf c'.state.store.cache c'.state.store.shelf :=
    hchronicle'.outdated hpairs' hcached' (similarPairs_ne htwo' hone')
      fun p hp hcalls => absurd hcalls (by rw [hread' p hp]; exact Bool.false_ne_true)
  exact ⟨⟨hpairs, hloaded, hdone, houtdated⟩, hpairs', hloaded', hdone', houtdated'⟩

end Shelfmark.Engine
