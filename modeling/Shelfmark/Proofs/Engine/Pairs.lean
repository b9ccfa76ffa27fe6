import Shelfmark.Engine.Comparing
import Shelfmark.Proofs.Decimal.Numerals
import Shelfmark.Proofs.Engine.Loading
import Shelfmark.Proofs.Similarity.Pairs
import Shelfmark.Proofs.Store.Wildcard

/-!
# Cached pairs

- Thresholds have different keys (`pairsKeyOf_injective`), all of which are forgotten at once (`keyMatches_pairsKeyOf`),
  and cached pairs are read for the number of pairs they were found for (`pairsIn_pairsEntry`);
- the cached pairs are fresh (`PairsFresh`) if they are those of the bookmarks on the shelf.  Where they are, the pairs
  that are found are those of the bookmarks on the shelf, and the cached pairs stay fresh (`findSimilar_spec`);
- pairs that are cached and not too old are found whatever the bookmarks are (`findSimilar_of_cached`).
-/

namespace Shelfmark.Engine

open Similarity

/-! ## Keys -/

/-- **No two thresholds have one key.** -/
theorem pairsKeyOf_injective {t t' : Number} (h : pairsKeyOf t = pairsKeyOf t') : t = t' := by
  have hlists := congrArg String.toList h
  simp only [pairsKeyOf, String.toList_append] at hlists
  exact Number.text_injective (String.toList_injective (List.append_cancel_left hlists))

/-- The values whose keys begin as those of pairs are forgotten together. -/
theorem keyMatches_of_begins {key : String} (h : pairsKey.toList <+: key.toList) :
    Cache.keyMatches similarityPattern key = true := by
  have hbegin : Wildcard.folded similarityPattern.toList <+: Wildcard.folded pairsKey.toList := by decide +kernel
  have hpattern : '\x00' ∉ similarityPattern.toList := by decide +kernel
  have hkey : '\x00' ∉ pairsKey.toList := by decide +kernel
  obtain ⟨rest, hrest⟩ := h
  rw [Cache.keyMatches, Wildcard.accepts_within hpattern, ← hrest, Wildcard.folded, Wildcard.folded,
    Wildcard.read_append hkey, List.map_append]
  exact (hbegin.trans (List.prefix_append _ _)).isInfix

/-- The cached pairs are forgotten together, whatever their thresholds. -/
theorem keyMatches_pairsKeyOf (t : Number) : Cache.keyMatches similarityPattern (pairsKeyOf t) = true :=
  keyMatches_of_begins (String.toList_append ▸ List.prefix_append _ _)

theorem pairsKeyOf_ne_indexKey (t : Number) : pairsKeyOf t ≠ indexKey := by
  intro h
  have hmatch := keyMatches_pairsKeyOf t
  rw [h] at hmatch
  exact absurd hmatch (by decide +kernel)

/-! ## Entries -/

theorem same_int (m n : Int) : (Json.int m).same (.int n) = (m == n) := by
  simp [Json.same, Json.sameNumber, Json.quotient?]

/-- **Cached pairs are read back for the number of pairs they were found for.** -/
theorem pairsIn_pairsEntry (room : Nat) (key : String) (ps : List (SimilarPair Float)) (m m' : Int) (now : Timestamp) :
    pairsIn room key (pairsEntry ps m now) m' = .ok (if m = m' then some ps else none) := by
  have hversion : (pairsEntry ps m now).get "schema_version" = .int pairsVersion := rfl
  have hlimit : (pairsEntry ps m now).get "max_pairs" = .int m := rfl
  rw [pairsEntry] at hversion hlimit
  rw [pairsEntry, pairsIn, hversion, hlimit, same_int, same_int, beq_self_eq_true]
  by_cases h : m = m'
  · rw [if_neg (by decide), if_neg (by simp [h]), if_pos h]
    show ((ps.map SimilarPair.toJson).mapM SimilarPair.ofJson).map some = _
    rw [mapM_ofJson]
    rfl
  · rw [if_neg (by decide), if_pos (by simpa using h), if_neg h]

/-! ## Fresh pairs -/

variable {α : Type} {w w' : State α} {c c' : Cache} {s : Shelf}

/-- The cached pairs are those of the bookmarks on a shelf. -/
def PairsFresh (c : Cache) (s : Shelf) : Prop :=
  ∀ e ∈ c.entries, Cache.keyMatches similarityPattern e.key = true → ∃ threshold maxPairs now,
    e.key = pairsKeyOf threshold ∧
      e.content = .value (pairsEntry (similarPairs s.all threshold.toFloat maxPairs) maxPairs now)

/-- A cache holds no pairs that another one does not hold. -/
def PairsWithin (c c' : Cache) : Prop :=
  ∀ e ∈ c'.entries, Cache.keyMatches similarityPattern e.key = true → e ∈ c.entries

/-- No pairs are cached. -/
def NoPairs (c : Cache) : Prop := ∀ e ∈ c.entries, Cache.keyMatches similarityPattern e.key = false

theorem PairsWithin.refl (c : Cache) : PairsWithin c c := fun _ h _ => h

theorem PairsFresh.within (h : PairsFresh c s) (hc : PairsWithin c c') : PairsFresh c' s :=
  fun e he hk => h e (hc e he hk) hk

theorem NoPairs.within (h : NoPairs c) (hc : PairsWithin c c') : NoPairs c' := by
  intro e he
  by_contra hk
  have hmem := hc e he (by simpa using hk)
  exact hk (h e hmem)

/-- Where no pairs are cached, they are fresh for any bookmarks. -/
theorem NoPairs.fresh (h : NoPairs c) (s : Shelf) : PairsFresh c s := by
  intro e he hk
  rw [h e he] at hk
  cases hk

theorem PairsWithin.trans {c'' : Cache} (h : PairsWithin c c') (h' : PairsWithin c' c'') : PairsWithin c c'' :=
  fun e he hk => h e (h' e he hk) hk

theorem pairsWithin_get (c : Cache) (now : Timestamp) (key : String) : PairsWithin c (c.get now key).2 :=
  fun _ he _ => Cache.mem_get he

theorem pairsWithin_set {key : String} (hk : Cache.keyMatches similarityPattern key = false) (c : Cache)
    (now : Timestamp) (v : Json) (lifetime : Option Number) : PairsWithin c (c.set now key v lifetime) := by
  intro e he hmatch
  rcases Cache.mem_set he with rfl | he
  · rw [hk] at hmatch
    cases hmatch
  · exact he

theorem noPairs_clear (c : Cache) : NoPairs (c.clear similarityPattern) :=
  fun _ he => (Cache.mem_clear (by decide) he).2

/-- Pairs that were found and are cached are fresh. -/
theorem PairsFresh.set (h : PairsFresh c s) (t : Number) (m : Int) (now : Timestamp) (lifetime : Option Number) :
    PairsFresh (c.set now (pairsKeyOf t) (pairsEntry (similarPairs s.all t.toFloat m) m now) lifetime) s := by
  intro e he hk
  rcases Cache.mem_set he with rfl | he
  · exact ⟨t, m, now, rfl, rfl⟩
  · exact h e he hk

/-- **What is read of fresh pairs are the pairs that were asked for, or none.** -/
theorem PairsFresh.read (h : PairsFresh c s) (room : Nat) (t : Number) (m : Int) (now : Timestamp) :
    ∃ v, (c.get now (pairsKeyOf t)).1 = .ok v ∧ (pairsIn room (pairsKeyOf t) v m = .ok none ∨
      pairsIn room (pairsKeyOf t) v m = .ok (some (similarPairs s.all t.toFloat m))) := by
  rcases c.get_cases now (pairsKeyOf t) with hget | hget | ⟨e, he, hkey, hvalue, _⟩
  · exact ⟨.null, by rw [hget], Or.inl rfl⟩
  · exact ⟨.null, by rw [hget], Or.inl rfl⟩
  · obtain ⟨t', m', since, hkey', hcontent⟩ := h e he (hkey ▸ keyMatches_pairsKeyOf t)
    obtain rfl := pairsKeyOf_injective (hkey.symm.trans hkey')
    refine ⟨_, by rw [hvalue _ hcontent], ?_⟩
    rw [pairsIn_pairsEntry]
    by_cases hm : m' = m
    · subst hm
      exact Or.inr (by rw [if_pos rfl])
    · exact Or.inl (by rw [if_neg hm])

/-! ## Looking for pairs -/

/-- The state in which what was read under a key is gone if its lifetime was over. -/
def State.afterReading (w : State α) (key : String) : State α := w.putCache (w.store.cache.get w.now key).2

theorem run_cachedPairs (h : w.Ready .getCache) {key : String} {v : Json} {m : Int}
    {found : Option (List (SimilarPair Float))} (hv : (w.store.cache.get w.now key).1 = .ok v)
    (hfound : pairsIn w.host.room key v m = .ok found) :
    (cachedPairs key m).run w = (.ok found, w.afterReading key) := by
  have hcached : (cached key).run w = (.ok v, w.afterReading key) := by
    rw [cached, run_store h, ← hv]
    rfl
  have hsame : (w.afterReading key).host = w.host := rfl
  simp only [cachedPairs, run_orElse, Task.run_bind, hcached, Task.follow_ok, Task.run_look, hsame, Task.run_ofExcept,
    hfound]

/-- **Pairs that are cached and not too old are found, whatever the bookmarks are.** -/
theorem findSimilar_of_cached (h : w.Ready .getCache) {t : Number} (htext : t.checkText = .ok ()) {m : Int}
    {ps : List (SimilarPair Float)} {e : CacheEntry} {since : Timestamp}
    (he : w.store.cache.entry? (pairsKeyOf t) = some e) (hcontent : e.content = .value (pairsEntry ps m since))
    (hx : e.isExpired w.now = false) : ((findSimilar (some t) (some m) true).run w).1 = .ok ps := by
  have hread := pairsIn_pairsEntry w.host.room (pairsKeyOf t) ps m m since
  rw [if_pos rfl] at hread
  have hrun := run_cachedPairs h (congrArg Prod.fst (Cache.get_of_value he hcontent hx)) hread
  simp only [findSimilar, Task.run_bind, Task.run_look, Task.run_ofExcept, Task.follow_ok, Option.getD_some, htext,
    if_true]
  rw [hrun]
  rfl

/-- Every host spells the record of the bookmark. -/
def IsSpelled (b : Bookmark) : Prop := (b.toRecord.checkBounds 5).isOk = true

instance (b : Bookmark) : Decidable (IsSpelled b) := inferInstanceAs (Decidable (_ = true))

theorem IsSpelled.within {b : Bookmark} (h : IsSpelled b) : Json.Within 5 b.toRecord := by
  unfold IsSpelled at h
  cases hcheck : b.toRecord.checkBounds 5 with
  | ok _ => exact Json.checkBounds_eq_ok_iff.mp hcheck
  | error e =>
    rw [hcheck] at h
    cases h

/-- There is room for pairs of bookmarks whose records every host spells. -/
theorem checkEntry_pairsEntry (host : Host) {ps : List (SimilarPair Float)} {m : Int} {lifetime : Number}
    (hps : ∀ p ∈ ps, IsSpelled p.first ∧ IsSpelled p.second) (hm : Json.isShort m = true)
    (hlifetime : lifetime.fitsColumn = true) (now : Timestamp) :
    checkEntry host.room (pairsEntry ps m now) (some lifetime) = .ok () := by
  have hpair : ∀ p ∈ ps, Json.Within 6 p.toJson := by
    intro p hp
    refine .obj ?_
    simp only [List.forall_mem_cons]
    exact ⟨(hps p hp).1.within, (hps p hp).2.within, .float _, .bool _, .bool _, fun _ hf => absurd hf List.not_mem_nil⟩
  have hpairs : Json.Within 7 (.arr (ps.map SimilarPair.toJson)) := .arr fun v hv => by
    obtain ⟨p, hp, rfl⟩ := List.mem_map.mp hv
    exact hpair p hp
  have hversion : Json.isShort pairsVersion = true := by decide +kernel
  have hentry : Json.Within 8 (pairsEntry ps m now) := .obj (by
    simp only [List.forall_mem_cons]
    exact ⟨.int hversion, .int hm, hpairs, .str _, fun _ hf => absurd hf List.not_mem_nil⟩)
  exact checkEntry_eq_ok_iff.mpr ⟨hentry.mono host.room_enough, hlifetime⟩

/-- The state in which pairs were cached, if there is room for them. -/
def State.withPairs (w : State α) (key : String) (ps : List (SimilarPair Float)) (maxPairs : Int) : State α :=
  let lifetime := some w.settings.similarity.pairsLifetime
  match checkEntry w.host.room (pairsEntry ps maxPairs w.now) lifetime with
  | .ok () => w.withCache (w.store.cache.set w.now key (pairsEntry ps maxPairs w.now) lifetime)
  | .error _ => w.withCache w.store.cache

theorem withPairs_of_room {key : String} {ps : List (SimilarPair Float)} {m : Int}
    (h : checkEntry w.host.room (pairsEntry ps m w.now) (some w.settings.similarity.pairsLifetime) = .ok ()) :
    w.withPairs key ps m = w.withCache (w.store.cache.set w.now key (pairsEntry ps m w.now)
      (some w.settings.similarity.pairsLifetime)) := by
  simp only [State.withPairs, h]

/-- The pairs are cached, or the cache stays as it is. -/
theorem withPairs_cases (w : State α) (key : String) (ps : List (SimilarPair Float)) (m : Int) :
    w.withPairs key ps m = w.withCache (w.store.cache.set w.now key (pairsEntry ps m w.now)
      (some w.settings.similarity.pairsLifetime)) ∨ w.withPairs key ps m = w.withCache w.store.cache := by
  simp only [State.withPairs]
  split
  · exact .inl rfl
  · exact .inr rfl

theorem run_computePairs (hall : w.Ready .getAll) (hset : w.Ready .setCache) (key : String) (t : Number) (m : Int) :
    (computePairs key t m).run w = (.ok (similarPairs w.store.shelf.all t.toFloat m),
      w.withPairs key (similarPairs w.store.shelf.all t.toFloat m) m) := by
  have hpause : (Task.pause : Task α Unit).run w = (.ok (), w) := rfl
  have hl : w.lock.Ready .setCache := hset
  simp only [computePairs, Task.run_bind, Task.run_attempt, run_allBookmarks hall, Task.follow_ok, hpause, cachePairs,
    run_orElse, Task.run_locked, Task.run_look, cacheValue, run_store hl, Task.run_pure, State.withPairs]
  generalize similarPairs w.store.shelf.all t.toFloat m = ps
  have hcheck : checkEntry w.lock.host.room (pairsEntry ps m w.lock.now)
      (some w.lock.settings.similarity.pairsLifetime) =
    checkEntry w.host.room (pairsEntry ps m w.now) (some w.settings.similarity.pairsLifetime) := rfl
  rw [hcheck]
  cases checkEntry w.host.room (pairsEntry ps m w.now) (some w.settings.similarity.pairsLifetime) <;> rfl

/-- Pairs that are not cached are computed. -/
theorem findSimilar_of_uncached (hget : w.Ready .getCache) (hall : w.Ready .getAll) (hset : w.Ready .setCache)
    {t : Number} (htext : t.checkText = .ok ()) (he : w.store.cache.entry? (pairsKeyOf t) = none) (m : Int) :
    (findSimilar (some t) (some m) true).run w = (.ok (similarPairs w.store.shelf.all t.toFloat m),
      w.withPairs (pairsKeyOf t) (similarPairs w.store.shelf.all t.toFloat m) m) := by
  have hread := run_cachedPairs (m := m) hget (congrArg Prod.fst (Cache.get_of_none he)) rfl
  have hstate : w.afterReading (pairsKeyOf t) = w := by
    rw [State.afterReading, Cache.get_of_none he]
    rfl
  simp only [findSimilar, Task.run_bind, Task.run_look, Task.run_ofExcept, Task.follow_ok, Option.getD_some, htext,
    if_true]
  rw [hread, hstate, Task.follow_ok]
  exact run_computePairs hall hset _ t m

/-- The threshold that holds: what is not given is taken from the settings. -/
def State.thresholdOf (w : State α) (threshold : Option Number) : Number :=
  threshold.getD w.settings.similarity.threshold

/-- The pairs that are looked for: what is not given is taken from the settings. -/
def State.pairsOf (w : State α) (threshold : Option Number) (maxPairs : Option Int) : List (SimilarPair Float) :=
  similarPairs w.store.shelf.all (w.thresholdOf threshold).toFloat (maxPairs.getD w.settings.similarity.maxPairs)

/-- The states agree in the bookmarks, the loaded indexes, the cached snapshot and what is out of order. -/
structure SameIndex (w w' : State α) : Prop where
  host : w'.host = w.host
  shelf : w'.store.shelf = w.store.shelf
  isOpen : w'.store.isOpen = w.store.isOpen
  faults : w'.faults = w.faults
  entry : w'.store.cache.entry? indexKey = w.store.cache.entry? indexKey
  editions : w'.editions = w.editions
  current : w'.current = w.current

theorem SameIndex.refl (w : State α) : SameIndex w w := ⟨rfl, rfl, rfl, rfl, rfl, rfl, rfl⟩

theorem SameIndex.trans {w'' : State α} (h : SameIndex w w') (h' : SameIndex w' w'') : SameIndex w w'' :=
  ⟨h'.host.trans h.host, h'.shelf.trans h.shelf, h'.isOpen.trans h.isOpen, h'.faults.trans h.faults,
    h'.entry.trans h.entry, h'.editions.trans h.editions, h'.current.trans h.current⟩

theorem sameIndex_withCache (h : c.entry? indexKey = w.store.cache.entry? indexKey) : SameIndex w (w.withCache c) :=
  ⟨rfl, rfl, rfl, rfl, h, rfl, rfl⟩

theorem sameIndex_afterReading (w : State α) (t : Number) : SameIndex w (w.afterReading (pairsKeyOf t)) :=
  ⟨rfl, rfl, rfl, rfl, Cache.entry_get_of_ne (pairsKeyOf_ne_indexKey t), rfl, rfl⟩

theorem sameIndex_withPairs (w : State α) (t : Number) (ps : List (SimilarPair Float)) (m : Int) :
    SameIndex w (w.withPairs (pairsKeyOf t) ps m) := by
  rcases withPairs_cases w (pairsKeyOf t) ps m with h | h <;> rw [h]
  · exact sameIndex_withCache (Cache.entry_set_of_ne (pairsKeyOf_ne_indexKey t))
  · exact sameIndex_withCache rfl

/-- A short whole number has a text. -/
theorem checkText_of_isShort {n : Int} (h : Json.isShort n = true) : (Number.int n).checkText = .ok () := if_pos h

/-- For a threshold without a text nothing is found, and nothing is changed. -/
theorem findSimilar_of_no_text {threshold : Option Number} {e : Fault}
    (h : (w.thresholdOf threshold).checkText = .error e) (maxPairs : Option Int) (useCache : Bool) :
    (findSimilar threshold maxPairs useCache).run w = (.error e, w) := by
  unfold State.thresholdOf at h
  simp only [findSimilar, Task.run_bind, Task.run_look, Task.follow_ok, Task.run_ofExcept, h, Task.follow_error]

section Looking

variable (hget : w.Ready .getCache) (hall : w.Ready .getAll) (hset : w.Ready .setCache)
  (hfresh : PairsFresh w.store.cache w.store.shelf)
include hall hset hfresh

/-- Computing pairs finds those of the bookmarks on the shelf and caches them. -/
theorem computePairs_spec (t : Number) (m : Int) : ∃ w', (computePairs (pairsKeyOf t) t m).run w =
    (.ok (similarPairs w.store.shelf.all t.toFloat m), w') ∧ SameIndex w w' ∧
      PairsFresh w'.store.cache w.store.shelf := by
  refine ⟨_, run_computePairs hall hset _ t m, sameIndex_withPairs w t _ m, ?_⟩
  rcases withPairs_cases w (pairsKeyOf t) (similarPairs w.store.shelf.all t.toFloat m) m with h | h <;> rw [h]
  · exact hfresh.set t m _ _
  · exact hfresh

include hget

/-- **Where the cached pairs are fresh, the pairs that are found are those of the bookmarks on the shelf,** for any
threshold that has a text. -/
theorem findSimilar_spec {threshold : Option Number} (htext : (w.thresholdOf threshold).checkText = .ok ())
    (maxPairs : Option Int) (useCache : Bool) : ∃ w',
    (findSimilar threshold maxPairs useCache).run w = (.ok (w.pairsOf threshold maxPairs), w') ∧ SameIndex w w' ∧
      PairsFresh w'.store.cache w.store.shelf := by
  unfold State.thresholdOf at htext
  unfold State.pairsOf State.thresholdOf findSimilar
  simp only [Task.run_bind, Task.run_look, Task.follow_ok, Task.run_ofExcept, htext]
  generalize threshold.getD w.settings.similarity.threshold = t
  generalize maxPairs.getD w.settings.similarity.maxPairs = m
  cases useCache with
  | false =>
    rw [if_neg (by decide), Task.run_bind, Task.run_pure, Task.follow_ok]
    exact computePairs_spec hall hset hfresh t m
  | true =>
    obtain ⟨v, hv, hnone | hsome⟩ := hfresh.read w.host.room t m w.now
    · have hfresh' : PairsFresh (w.afterReading (pairsKeyOf t)).store.cache w.store.shelf :=
        hfresh.within (pairsWithin_get _ _ _)
      obtain ⟨w', hrun, hsame, hpairs⟩ := computePairs_spec (w := w.afterReading (pairsKeyOf t)) hall hset hfresh' t m
      rw [if_pos rfl, Task.run_bind, run_cachedPairs hget hv hnone, Task.follow_ok]
      exact ⟨w', hrun, (sameIndex_afterReading w t).trans hsame, hpairs⟩
    · rw [if_pos rfl, Task.run_bind, run_cachedPairs hget hv hsome, Task.follow_ok]
      exact ⟨_, rfl, sameIndex_afterReading w t, hfresh.within (pairsWithin_get _ _ _)⟩

end Looking

end Shelfmark.Engine
