import Mathlib.Data.List.Nodup
import Shelfmark.Proofs.History
import Shelfmark.Proofs.Store.Cache
import Shelfmark.Proofs.Store.Wildcard

/-!
# Entries of the cache

The cache is used by setting, reading and removing keys (`Use`).  A value stands under its key from when it was set
until the key is set again, is removed, or is read when the lifetime of the value is over (`Stands`).  After any uses
the entries of the cache are these values and no others (`entry_iff_stands`), one for each key (`WellKept`), and so is
what is read (`get_of_entry`, `WellKept.get_null`).
-/

namespace Shelfmark.Cache

/-- A use of the cache. -/
inductive Use
  | set (now : Timestamp) (key : String) (v : Json) (lifetime : Option Number)
  | get (now : Timestamp) (key : String)
  | clear (pattern : String)

/-- More seconds than a lifetime have passed since some time. -/
def Outlived (since : Timestamp) (lifetime : Option Number) (now : Timestamp) : Prop :=
  ∃ n ∈ lifetime, n.toFloat < now.seconds - since.seconds

instance (since : Timestamp) (lifetime : Option Number) (now : Timestamp) :
    Decidable (Outlived since lifetime now) := by
  unfold Outlived
  infer_instance

/-- A key is removed for a pattern. -/
def Clears (pattern key : String) : Prop := pattern = "" ∨ keyMatches pattern key = true

instance (pattern key : String) : Decidable (Clears pattern key) := by unfold Clears; infer_instance

namespace Use

/-- The cache after a use. -/
def apply (c : Cache) : Use → Cache
  | set now key v lifetime => c.set now key v lifetime
  | get now key => (c.get now key).2
  | clear pattern => c.clear pattern

/-- A key is set. -/
def Sets (key : String) : Use → Prop
  | set _ key' _ _ => key' = key
  | get _ _ => False
  | clear _ => False

/-- What stands under a key since some time ends: the key is set again, read too late, or removed. -/
def Ends (key : String) (since : Timestamp) (lifetime : Option Number) : Use → Prop
  | set _ key' _ _ => key' = key
  | get now key' => key' = key ∧ Outlived since lifetime now
  | clear pattern => Clears pattern key

end Use

variable {c : Cache} {u : Use} {us : List Use} {key key' pattern : String} {v : Json} {since now : Timestamp}
  {lifetime : Option Number} {e : CacheEntry}

/-- A value was set under a key at some time with some lifetime, and still stands there. -/
def Stands (us : List Use) (key : String) (v : Json) (since : Timestamp) (lifetime : Option Number) : Prop :=
  Lasts (· = .set since key v lifetime) (Use.Ends key since lifetime) us

theorem stands_snoc : Stands (us ++ [u]) key v since lifetime ↔
    u = .set since key v lifetime ∨ Stands us key v since lifetime ∧ ¬u.Ends key since lifetime := lasts_snoc

/-! ## One use -/

theorem isExpired_iff : e.isExpired now = true ↔ Outlived e.since e.lifetime now := by
  obtain ⟨_, _, _, lifetime⟩ := e
  cases lifetime <;> simp [CacheEntry.isExpired, Outlived]

/-- Reading a key removes the value whose lifetime is over. -/
theorem entry_get (c : Cache) (now : Timestamp) (key : String) :
    Cache.entry? (c.get now key).2 key = (c.entry? key).filter fun e => !e.isExpired now := by
  cases he : c.entry? key with
  | none => rw [get_of_none he, he, Option.filter_none]
  | some e =>
    unfold get
    simp only [he]
    split
    · rename_i hx
      rw [entry_remove, Option.filter_some, hx]
      rfl
    · rename_i hx
      have hkeep : (!e.isExpired now) = true := by simpa using hx
      rw [Option.filter_some, if_pos hkeep]
      split <;> exact he

theorem entry_cleared (h : Clears pattern key) : Cache.entry? (c.clear pattern) key = none := by
  unfold entry? clear
  rw [List.find?_filter, List.find?_eq_none]
  intro f _
  rcases h with rfl | h
  · simp
  · by_cases hf : f.key = key
    · simp [hf, h]
    · simp [hf]

theorem entry_not_cleared (h : ¬Clears pattern key) : Cache.entry? (c.clear pattern) key = c.entry? key := by
  rw [Clears, not_or] at h
  exact entry_clear (by simpa using h.1) (by simpa using h.2)

/-- **A value stands under a key after a use that sets it there, or if it stood there before and the use does not end
that.** -/
theorem entry_apply : Cache.entry? (u.apply c) key = some ⟨key, .value v, since, lifetime⟩ ↔
    u = .set since key v lifetime ∨
      c.entry? key = some ⟨key, .value v, since, lifetime⟩ ∧ ¬u.Ends key since lifetime := by
  cases u with
  | set now key' v' lifetime' =>
    by_cases hk : key' = key
    · subst hk
      simp [Use.apply, Use.Ends, and_comm, and_left_comm]
    · simp [Use.apply, Use.Ends, entry_set_of_ne hk, hk]
  | get now key' =>
    by_cases hk : key' = key
    · subst hk
      have hx : (!(⟨key', .value v, since, lifetime⟩ : CacheEntry).isExpired now) = true ↔
          ¬Outlived since lifetime now := by
        rw [Bool.not_eq_true', ← Bool.not_eq_true, isExpired_iff]
      simp only [Use.apply, entry_get, Option.filter_eq_some_iff, hx, Use.Ends, true_and, reduceCtorEq, false_or]
    · simp [Use.apply, Use.Ends, entry_get_of_ne hk, hk]
  | clear pattern =>
    by_cases hp : Clears pattern key
    · simp [Use.apply, Use.Ends, entry_cleared hp, hp]
    · simp [Use.apply, Use.Ends, entry_not_cleared hp, hp]

/-! ## Caches that are well kept -/

/-- Each key has one entry, and this is a value. -/
structure WellKept (c : Cache) : Prop where
  distinct : (c.entries.map (·.key)).Nodup
  values : ∀ e ∈ c.entries, ∃ v, e.content = .value v

/-- The keys after an entry was set: its own behind those that were there, or only those. -/
theorem keys_replaceIn (e : CacheEntry) : ∀ es : List CacheEntry, (replaceIn e es).map (·.key) =
    if e.key ∈ es.map (·.key) then es.map (·.key) else es.map (·.key) ++ [e.key]
  | [] => rfl
  | f :: rest => by
    unfold replaceIn
    by_cases h : f.key = e.key
    · simp [h]
    · have hne : e.key ≠ f.key := fun he => h he.symm
      simp only [beq_iff_eq, h, if_false, List.map_cons, keys_replaceIn e rest, List.mem_cons, hne, false_or]
      split <;> rfl

theorem WellKept.filter (h : WellKept c) (p : CacheEntry → Bool) : WellKept ⟨c.entries.filter p⟩ :=
  ⟨h.distinct.sublist (List.filter_sublist.map _), fun e he => h.values e (List.mem_filter.mp he).1⟩

theorem WellKept.set (h : WellKept c) (now : Timestamp) (key : String) (v : Json) (lifetime : Option Number) :
    WellKept (c.set now key v lifetime) := by
  refine ⟨?_, fun e he => ?_⟩
  · show ((replaceIn _ c.entries).map (·.key)).Nodup
    rw [keys_replaceIn]
    split
    · exact h.distinct
    · rename_i hnew
      rw [← List.concat_eq_append]
      exact List.Nodup.concat hnew h.distinct
  · rcases mem_set he with rfl | he
    · exact ⟨v, rfl⟩
    · exact h.values e he

/-- **Every use leaves the cache well kept.** -/
theorem WellKept.apply (h : WellKept c) (u : Use) : WellKept (u.apply c) := by
  cases u with
  | set now key v lifetime => exact h.set now key v lifetime
  | get now key =>
    show WellKept (c.get now key).2
    rcases c.get_cases now key with hget | hget | ⟨_, _, _, _, hget⟩
    · rwa [hget]
    · rw [hget]
      exact h.filter _
    · rwa [hget]
  | clear pattern => exact h.filter _

theorem WellKept.entry (h : WellKept c) (he : c.entry? key = some e) :
    ∃ v, e = ⟨key, .value v, e.since, e.lifetime⟩ := by
  obtain ⟨v, hv⟩ := h.values e (List.mem_of_find?_eq_some he)
  have hkey : e.key = key := by simpa using List.find?_some he
  exact ⟨v, by rw [← hkey, ← hv]⟩

/-! ## Readings and removals -/

theorem get_of_expired (he : c.entry? key = some e) (hx : e.isExpired now = true) :
    c.get now key = (.ok .null, c.remove key) := by
  simp [get, he, hx]

/-- A value whose lifetime is not over is read. -/
theorem get_of_entry (he : c.entry? key = some ⟨key, .value v, since, lifetime⟩) (hx : ¬Outlived since lifetime now) :
    (c.get now key).1 = .ok v := by
  have hfresh : (⟨key, .value v, since, lifetime⟩ : CacheEntry).isExpired now = false := by
    rwa [← Bool.not_eq_true, isExpired_iff]
  rw [get_of_value he rfl hfresh]

/-- Where every value under a key has outlived its lifetime, null is read. -/
theorem WellKept.get_null (h : WellKept c)
    (hx : ∀ v since lifetime, c.entry? key = some ⟨key, .value v, since, lifetime⟩ → Outlived since lifetime now) :
    (c.get now key).1 = .ok .null := by
  cases he : c.entry? key with
  | none => rw [get_of_none he]
  | some e =>
    obtain ⟨v, hv⟩ := h.entry he
    have hexpired : e.isExpired now = true := isExpired_iff.mpr (hx v _ _ (hv ▸ he))
    rw [get_of_expired he hexpired]

/-- What is read of a key is what its entry says. -/
theorem get_congr {c' : Cache} (h : c'.entry? key = c.entry? key) : (c'.get now key).1 = (c.get now key).1 := by
  unfold get
  rw [h]
  cases c.entry? key with
  | none => rfl
  | some e =>
    dsimp only
    split
    · rfl
    · split <;> rfl

/-- As many entries are removed for a pattern as there are keys that are removed for it. -/
theorem length_sub_clear (c : Cache) (pattern : String) :
    c.entries.length - (c.clear pattern).entries.length =
      ((c.entries.map (·.key)).filter (Clears pattern ·)).length := by
  have hkept : (c.clear pattern).entries = c.entries.filter fun e => !decide (Clears pattern e.key) := by
    refine List.filter_congr fun e _ => ?_
    rw [Bool.eq_iff_iff, Bool.not_eq_true', decide_eq_false_iff_not]
    simp [Clears]
  have hlength := List.length_eq_length_filter_add (l := c.entries) fun e => decide (Clears pattern e.key)
  rw [hkept, List.filter_map, List.length_map]
  show c.entries.length - _ = (c.entries.filter fun e => decide (Clears pattern e.key)).length
  omega

theorem mem_keys_iff : key ∈ c.entries.map (·.key) ↔ ∃ e, c.entry? key = some e := by
  rw [← Option.isSome_iff_exists, entry?, List.find?_isSome]
  simp

/-! ## Any uses -/

theorem wellKept_empty : WellKept {} := ⟨List.nodup_nil, fun _ he => absurd he List.not_mem_nil⟩

theorem wellKept_foldl_apply (h : WellKept c) (us : List Use) : WellKept (us.foldl Use.apply c) := by
  induction us generalizing c with
  | nil => exact h
  | cons u us ih => exact ih (h.apply u)

/-- **The entries are the values that were set and still stand.** -/
theorem entry_iff_stands : Cache.entry? (us.foldl Use.apply {}) key = some ⟨key, .value v, since, lifetime⟩ ↔
    Stands us key v since lifetime := by
  induction us using List.reverseRecOn with
  | nil =>
    have hnone : Cache.entry? {} key = none := rfl
    simp [hnone, Stands, not_lasts_nil]
  | append_singleton us u ih =>
    rw [List.foldl_append, List.foldl_cons, List.foldl_nil, entry_apply, ih, stands_snoc]

end Shelfmark.Cache
