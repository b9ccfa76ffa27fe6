import Shelfmark.Proofs.Engine.Loading
import Shelfmark.Proofs.Store.Entries

/-!
# Cached values

The cache is used through the store while time passes (`CacheUsed`).  However it is used, a key is read as the value
that was set last, as long as this stands and its lifetime is not over, and else as null (`cache_expires`); and a
pattern removes the keys in which it occurs, as texts are read and apart from the case of ASCII letters
(`clears_iff_occurs`).  What the store refuses, a value or a lifetime that it cannot write and a pattern that is too
long, changes nothing.
-/

namespace Shelfmark.Engine

open Cache (Use Stands Outlived Clears)

variable {α : Type} {w w₀ w' : State α} {us : List Use}

/-- A pattern occurs in a key, as both are read and apart from the case of ASCII letters. -/
def Occurs (pattern key : String) : Prop := Wildcard.folded pattern.toList <:+: Wildcard.folded key.toList

instance (pattern key : String) : Decidable (Occurs pattern key) := by unfold Occurs; infer_instance

/-- The states that come from one by using the cache and letting time pass, with the uses of the cache. -/
inductive CacheUsed (w₀ : State α) : List Use → State α → Prop
  | start : CacheUsed w₀ [] w₀
  | set {us : List Use} {w : State α} (key : String) {v : Json} {lifetime : Option Number}
      (hv : checkEntry w.host.room v lifetime = .ok ()) (h : CacheUsed w₀ us w) :
      CacheUsed w₀ (us ++ [.set w.now key v lifetime]) ((cacheValue key v lifetime).run w).2
  /-- A value that cannot be written, or not with its lifetime. -/
  | refuse {us : List Use} {w : State α} (key : String) {v : Json} {lifetime : Option Number} {e : Fault}
      (hv : checkEntry w.host.room v lifetime = .error e) (h : CacheUsed w₀ us w) :
      CacheUsed w₀ us ((cacheValue key v lifetime).run w).2
  | get {us : List Use} {w : State α} (key : String) (h : CacheUsed w₀ us w) :
      CacheUsed w₀ (us ++ [.get w.now key]) ((cached key).run w).2
  | clear {us : List Use} {w : State α} {pattern : String} (hp : w.store.cache.refuses pattern = false)
      (h : CacheUsed w₀ us w) : CacheUsed w₀ (us ++ [.clear pattern]) ((clearCached pattern).run w).2
  /-- A pattern that is too long. -/
  | ignore {us : List Use} {w : State α} {pattern : String} (hp : w.store.cache.refuses pattern = true)
      (h : CacheUsed w₀ us w) : CacheUsed w₀ us ((clearCached pattern).run w).2
  | wait {us : List Use} {w : State α} (seconds : Number) (h : CacheUsed w₀ us w) :
      CacheUsed w₀ us ((letPass seconds).run w).2

/-! ## Runs -/

theorem run_cached (h : w.Ready .getCache) (key : String) :
    (cached key).run w = ((w.store.cache.get w.now key).1, w.putCache (w.store.cache.get w.now key).2) := run_store h _

/-- **A store that is in order stays in order, and its cache is that after the uses.** -/
theorem CacheUsed.cache (h : CacheUsed w₀ us w) (hr : ∀ op, w₀.Ready op) :
    (∀ op, w.Ready op) ∧ w.store.cache = us.foldl Use.apply w₀.store.cache := by
  induction h with
  | start => exact ⟨hr, rfl⟩
  | set key hv h ih =>
    rw [run_cacheValue (ih.1 _) hv, List.foldl_append, ← ih.2]
    exact ⟨ih.1, rfl⟩
  | refuse key hv h ih => rwa [run_cacheValue_refused (ih.1 _) hv]
  | get key h ih =>
    rw [run_cached (ih.1 _), List.foldl_append, ← ih.2]
    exact ⟨ih.1, rfl⟩
  | clear hp h ih =>
    rw [run_clearCached (ih.1 _) hp, List.foldl_append, ← ih.2]
    exact ⟨ih.1, rfl⟩
  | ignore hp h ih => rwa [run_clearCached_refused (ih.1 _) hp]
  | @wait us _ seconds h ih =>
    exact letPass_keeps (P := fun w => (∀ op, w.Ready op) ∧ w.store.cache = us.foldl Use.apply w₀.store.cache) ih
      (fun _ => ih) seconds

/-! ## Keys that stay null -/

/-- Nothing stands under a key, or null does. -/
def HoldsNull (c : Cache) (key : String) : Prop := ∀ e, c.entry? key = some e → e.content = .value .null

theorem HoldsNull.get {c : Cache} {key : String} (h : HoldsNull c key) (now : Timestamp) :
    (c.get now key).1 = .ok .null := by
  cases he : c.entry? key with
  | none => rw [Cache.get_of_none he]
  | some e =>
    by_cases hx : e.isExpired now = true
    · rw [Cache.get_of_expired he hx]
    · rw [Cache.get_of_value he (h e he) (by simpa using hx)]

/-- What was read as null stays so. -/
theorem holdsNull_of_get {c : Cache} {now : Timestamp} {key : String} (h : (c.get now key).1 = .ok .null) :
    HoldsNull (c.get now key).2 key := by
  intro e he
  rw [Cache.entry_get, Option.filter_eq_some_iff] at he
  obtain ⟨he, hx⟩ := he
  have hx : e.isExpired now = false := by simpa using hx
  cases hcontent : e.content with
  | value v =>
    rw [Cache.get_of_value he hcontent hx] at h
    rw [Except.ok.inj h]
  | unreadable => simp [Cache.get, he, hx, hcontent] at h

/-- A use that does not set the key leaves null there. -/
theorem HoldsNull.apply {c : Cache} {key : String} (h : HoldsNull c key) {u : Use} (hu : ¬u.Sets key) :
    HoldsNull (u.apply c) key := by
  intro e he
  cases u with
  | set now key' v lifetime => exact h e ((Cache.entry_set_of_ne hu).symm.trans he)
  | get now key' =>
    by_cases hk : key' = key
    · subst hk
      rw [Use.apply, Cache.entry_get, Option.filter_eq_some_iff] at he
      exact h e he.1
    · exact h e ((Cache.entry_get_of_ne hk).symm.trans he)
  | clear pattern =>
    by_cases hp : Clears pattern key
    · rw [Use.apply, Cache.entry_cleared hp] at he
      cases he
    · exact h e ((Cache.entry_not_cleared hp).symm.trans he)

theorem HoldsNull.foldl_apply {c : Cache} {key : String} (h : HoldsNull c key) (hu : ∀ u ∈ us, ¬u.Sets key) :
    HoldsNull (us.foldl Use.apply c) key := by
  induction us generalizing c with
  | nil => exact h
  | cons u us ih => exact ih (h.apply (hu u List.mem_cons_self)) fun u' hu' => hu u' (List.mem_cons_of_mem u hu')

/-! ## Reading and writing afterwards -/

/-- Where null was read, it is read again until the key is set. -/
theorem CacheUsed.stays_null {us' : List Use} {w'' : State α} {key : String} (hr : ∀ op, w.Ready op)
    (hnull : (cached key).run w = (.ok .null, w')) (h : CacheUsed w' us' w'') (hsets : ∀ u ∈ us', ¬u.Sets key) :
    ((cached key).run w'').1 = .ok .null := by
  rw [run_cached (hr _), Prod.mk.injEq] at hnull
  obtain ⟨hnull, rfl⟩ := hnull
  have hr' : ∀ op, (w.putCache (w.store.cache.get w.now key).2).Ready op := hr
  obtain ⟨hr'', hcache⟩ := h.cache hr'
  rw [run_cached (hr'' _), hcache]
  exact ((holdsNull_of_get hnull).foldl_apply hsets).get w''.now

theorem run_cacheValue_eq_ok_iff (h : w.Ready .setCache) {key : String} {v : Json} {lifetime : Option Number} :
    ((cacheValue key v lifetime).run w).1 = .ok () ↔
      Json.Within w.host.room v ∧ lifetime.all Number.fitsColumn = true := by
  rw [← checkEntry_eq_ok_iff]
  cases hv : checkEntry w.host.room v lifetime with
  | ok => simp only [run_cacheValue h hv]
  | error e => simp [run_cacheValue_refused h hv]

section Cleared

variable {pattern key : String}

theorem cached_of_cleared (hr : ∀ op, w.Ready op) (h : Clears pattern key) :
    ((cached key).run (w.putCache (w.store.cache.clear pattern))).1 = .ok .null := by
  have hr' : ∀ op, (w.putCache (w.store.cache.clear pattern)).Ready op := hr
  rw [run_cached (hr' _)]
  exact congrArg Prod.fst (Cache.get_of_none (Cache.entry_cleared h))

theorem cached_of_not_cleared (hr : ∀ op, w.Ready op) (h : ¬Clears pattern key) :
    ((cached key).run (w.putCache (w.store.cache.clear pattern))).1 = ((cached key).run w).1 := by
  have hr' : ∀ op, (w.putCache (w.store.cache.clear pattern)).Ready op := hr
  rw [run_cached (hr' _), run_cached (hr _)]
  exact Cache.get_congr (Cache.entry_not_cleared h)

end Cleared

/-! ## The whole -/

/-- **A pattern without a NUL removes the keys in which it occurs.** -/
theorem clears_iff_occurs {pattern key : String} (hp : pattern ≠ "") (hn : '\x00' ∉ pattern.toList) :
    Clears pattern key ↔ Occurs pattern key := by
  rw [Clears, or_iff_right hp]
  exact Wildcard.accepts_within hn

/-- A text that is read as it stands. -/
def IsPlain (s : String) : Prop := ∀ c ∈ s.toList, c ≠ '\x00' ∧ c ≠ '\ufffe' ∧ c ≠ '\uffff'

/-- Of plain texts one occurs in the other apart from the case of ASCII letters. -/
theorem occurs_iff_of_plain {pattern key : String} (hp : IsPlain pattern) (hk : IsPlain key) :
    Occurs pattern key ↔ pattern.toList.map Char.toLower <:+: key.toList.map Char.toLower := by
  rw [Occurs, Wildcard.folded, Wildcard.folded, Wildcard.read_of_plain hp, Wildcard.read_of_plain hk]

/-- **However the cache is used, a key is read as the value that was set there last, unless it was removed since, or its
lifetime was over when it was read since or is over now.**  Else null is read; and where null was read, it is read again
until the key is set.  Setting a value answers exactly if it can be spelled and its lifetime fits into a column.  A
pattern that is not too long removes the keys that it clears, counts them, and leaves alone what is read of the others;
these are the keys in which it occurs. -/
theorem cache_expires (hr : ∀ op, w₀.Ready op) (hempty : w₀.store.cache = {}) (h : CacheUsed w₀ us w) :
    (∀ key,
      (∀ v since lifetime, Stands us key v since lifetime → ¬Outlived since lifetime w.now →
        ((cached key).run w).1 = .ok v) ∧
      ((∀ v since lifetime, Stands us key v since lifetime → Outlived since lifetime w.now) →
        ((cached key).run w).1 = .ok .null) ∧
      ∀ w', (cached key).run w = (.ok .null, w') → ∀ us' w'', CacheUsed w' us' w'' → (∀ u ∈ us', ¬u.Sets key) →
        ((cached key).run w'').1 = .ok .null) ∧
    (∀ key v lifetime, ((cacheValue key v lifetime).run w).1 = .ok () ↔
      Json.Within w.host.room v ∧ lifetime.all Number.fitsColumn = true) ∧
    (∃ keys : List String, keys.Nodup ∧ (∀ key, key ∈ keys ↔ ∃ v since lifetime, Stands us key v since lifetime) ∧
      ∀ pattern,
        (w.store.cache.refuses pattern = true → (clearCached pattern).run w = (.error .wildcardTooLong, w)) ∧
        (w.store.cache.refuses pattern = false →
          ∃ w', (clearCached pattern).run w = (.ok (keys.filter (Clears pattern ·)).length, w') ∧
            (∀ key, Clears pattern key → ((cached key).run w').1 = .ok .null) ∧
            ∀ key, ¬Clears pattern key → ((cached key).run w').1 = ((cached key).run w).1)) ∧
    ∀ pattern key, pattern ≠ "" → '\x00' ∉ pattern.toList → (Clears pattern key ↔ Occurs pattern key) ∧
      (IsPlain pattern → IsPlain key →
        (Occurs pattern key ↔ pattern.toList.map Char.toLower <:+: key.toList.map Char.toLower)) := by
  obtain ⟨hready, hcache⟩ := h.cache hr
  rw [hempty] at hcache
  have hkept : Cache.WellKept w.store.cache := hcache ▸ Cache.wellKept_foldl_apply Cache.wellKept_empty us
  have hstands : ∀ {key v since lifetime}, w.store.cache.entry? key = some ⟨key, .value v, since, lifetime⟩ ↔
      Stands us key v since lifetime := hcache ▸ Cache.entry_iff_stands
  refine ⟨fun key => ⟨fun v since lifetime hs hx => ?_, fun hx => ?_,
      fun w' hnull us' w'' h' hsets => h'.stays_null hready hnull hsets⟩,
    fun key v lifetime => run_cacheValue_eq_ok_iff (hready _),
    ⟨w.store.cache.entries.map (·.key), hkept.distinct, fun key => ?_,
      fun pattern => ⟨run_clearCached_refused (hready _), fun hp => ?_⟩⟩,
    fun pattern key hp hn => ⟨clears_iff_occurs hp hn, occurs_iff_of_plain⟩⟩
  · rw [run_cached (hready _)]
    exact Cache.get_of_entry (hstands.mpr hs) hx
  · rw [run_cached (hready _)]
    exact hkept.get_null fun v since lifetime he => hx v since lifetime (hstands.mp he)
  · rw [Cache.mem_keys_iff]
    constructor
    · rintro ⟨e, he⟩
      obtain ⟨v, hv⟩ := hkept.entry he
      exact ⟨v, _, _, hstands.mp (hv ▸ he)⟩
    · rintro ⟨v, since, lifetime, hs⟩
      exact ⟨_, hstands.mpr hs⟩
  · refine ⟨w.putCache (w.store.cache.clear pattern), ?_, fun key hk => cached_of_cleared hready hk,
      fun key hk => cached_of_not_cleared hready hk⟩
    rw [run_clearCached (hready _) hp, Cache.length_sub_clear]

/-- A value is read until its lifetime is over, and a pattern with a wildcard in it stands for itself. -/
theorem cache_expires_sample :
    let w₁ := ((cacheValue "a_B" (.int 1) (some (.int 10))).run ({} : State Float)).2
    let w₂ := ((cacheValue "axb" (.int 2) none).run w₁).2
    let w₃ := ((letPass (.int 11)).run w₂).2
    ((cached "a_B").run w₂).1 = .ok (.int 1) ∧ ((cached "a_B").run w₃).1 = .ok .null ∧
      ∃ w', (clearCached "A_").run w₃ = (.ok 1, w') ∧ ((cached "a_B").run w').1 = .ok .null ∧
        ((cached "axb").run w').1 = .ok (.int 2) := by
  intro w₁ w₂ w₃
  have hr : ∀ op, ({} : State Float).Ready op := fun op => ⟨rfl, rfl⟩
  have hint : ∀ n : Int, Json.isShort n = true → Json.Within usualRoom (.int n) := fun _ => .int
  have hfirst : checkEntry usualRoom (.int 1) (some (.int 10)) = .ok () :=
    checkEntry_eq_ok_iff.mpr ⟨hint 1 (by decide +kernel), by decide⟩
  have hsecond : checkEntry usualRoom (.int 2) none = .ok () :=
    checkEntry_eq_ok_iff.mpr ⟨hint 2 (by decide +kernel), by decide⟩
  have h₁ : CacheUsed {} _ w₁ := .set "a_B" hfirst .start
  have hnow : w₁.now = Timestamp.epoch := by
    show ((cacheValue "a_B" (.int 1) (some (.int 10))).run ({} : State Float)).2.now = _
    rw [run_cacheValue ⟨rfl, rfl⟩ hfirst]
    rfl
  have h₂ : CacheUsed {} _ w₂ := .set "axb" hsecond h₁
  obtain ⟨hread₂, _⟩ := cache_expires hr rfl h₂
  obtain ⟨hread₃, _, ⟨_, _, _, hclear⟩, _⟩ := cache_expires hr rfl (.wait (.int 11) h₂)
  obtain ⟨w', hrun, hgone, hleft⟩ := (hclear "A_").2 (Cache.refuses_of_short (by decide +kernel))
  have hone : ((clearCached "A_").run w₃).1.toOption = some 1 := by decide +kernel
  rw [hrun] at hone
  refine ⟨?_, ?_, w', Option.some.inj hone ▸ hrun, hgone _ (by decide +kernel), (hleft _ (by decide +kernel)).trans ?_⟩
  · refine (hread₂ "a_B").1 _ Timestamp.epoch (some (.int 10)) ⟨[], _, _, rfl, rfl, ?_⟩ (by decide +kernel)
    simp [Use.Ends]
  · refine (hread₃ "a_B").2.1 fun v since lifetime hs => ?_
    rcases Cache.stands_snoc.mp hs with he | ⟨hs, _⟩
    · simp at he
    · rcases Cache.stands_snoc.mp hs with he | ⟨hs, _⟩
      · obtain ⟨rfl, _, rfl, rfl⟩ := Use.set.inj he
        decide +kernel
      · exact absurd hs not_lasts_nil
  · exact (hread₃ "axb").1 _ Timestamp.epoch none ⟨_, _, [], rfl, by rw [hnow], by simp⟩ (by decide +kernel)

/-- **A value with a lifetime of more seconds than fit into a column is not cached**, and null is read. -/
theorem cache_refuses_wide_lifetime :
    let lifetime : Option Number := some (.int 9223372036854775808)
    (∃ e, ((cacheValue "a" (.int 1) lifetime).run ({} : State Float)).1 = .error e) ∧
      ((cached "a").run ((cacheValue "a" (.int 1) lifetime).run ({} : State Float)).2).1 = .ok .null := by
  intro lifetime
  have hready : ({} : State Float).Ready .setCache := ⟨rfl, rfl⟩
  obtain ⟨e, he⟩ : ∃ e, checkEntry usualRoom (.int 1) lifetime = .error e := by
    cases hv : checkEntry usualRoom (.int 1) lifetime with
    | ok => exact absurd (checkEntry_eq_ok_iff.mp hv).2 (by decide)
    | error e => exact ⟨e, rfl⟩
  rw [run_cacheValue_refused hready he]
  exact ⟨⟨e, rfl⟩, rfl⟩

end Shelfmark.Engine
