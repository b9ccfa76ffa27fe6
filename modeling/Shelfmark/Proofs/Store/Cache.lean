import Shelfmark.Store.Cache

/-!
# The cache

What stands under a key after the cache was changed: a value that was set for good is read (`get_set`), reading does not
change what is read (`get_get`), and removing the keys with a pattern leaves the others alone (`entry_clear`).

Setting a key adds one entry at most (`mem_set`), reading and removing add none (`mem_get`, `mem_clear`), and setting
and reading do not touch what stands under another key (`entry_set_of_ne`, `entry_get_of_ne`).
-/

namespace Shelfmark.Cache

variable {c : Cache} {now now' : Timestamp} {key pattern : String} {v : Json} {e : CacheEntry}
  {lifetime : Option Number}

/-! ## Entries -/

theorem find?_replaceIn : ∀ {es : List CacheEntry}, e.key = key →
    (replaceIn e es).find? (fun f => f.key == key) = some e
  | [], h => by simp [replaceIn, h]
  | f :: rest, h => by
    unfold replaceIn
    split
    · simp [h]
    · rename_i hf
      have hne : (f.key == key) = false := by simpa [h] using hf
      rw [List.find?_cons, hne]
      exact find?_replaceIn h

/-- What was set stands under its key. -/
@[simp] theorem entry_set : Cache.entry? (c.set now key v lifetime) key = some ⟨key, .value v, now, lifetime⟩ :=
  find?_replaceIn rfl

@[simp] theorem entry_remove : Cache.entry? (c.remove key) key = none := by
  simp [ entry?, remove]

/-- Keys without the pattern keep what stands under them. -/
theorem entry_clear (hp : pattern.isEmpty = false) (hk : keyMatches pattern key = false) :
    Cache.entry? (c.clear pattern) key = c.entry? key := by
  unfold entry? clear
  rw [List.find?_filter]
  refine congrArg (fun p => c.entries.find? p) (funext fun f => ?_)
  by_cases hf : f.key = key
  · simp [hf, hp, hk]
  · simp [hf]

theorem mem_replaceIn {f : CacheEntry} : ∀ {es : List CacheEntry}, f ∈ replaceIn e es → f = e ∨ f ∈ es
  | [], h => Or.inl (List.mem_singleton.mp h)
  | g :: rest, h => by
    unfold replaceIn at h
    split at h
    · exact (List.mem_cons.mp h).imp_right (List.mem_cons_of_mem _)
    · rcases List.mem_cons.mp h with rfl | h
      · exact Or.inr List.mem_cons_self
      · exact (mem_replaceIn h).imp_right (List.mem_cons_of_mem _)

/-- Only the entry that is set is new. -/
theorem mem_set (h : e ∈ (c.set now key v lifetime).entries) : e = ⟨key, .value v, now, lifetime⟩ ∨ e ∈ c.entries :=
  mem_replaceIn h

theorem mem_clear (hp : pattern.isEmpty = false) (h : e ∈ (c.clear pattern).entries) :
    e ∈ c.entries ∧ keyMatches pattern e.key = false := by
  simpa [clear, hp] using h

theorem find?_replaceIn_of_ne {key' : String} (hk : e.key ≠ key') : ∀ {es : List CacheEntry},
    (replaceIn e es).find? (fun f => f.key == key') = es.find? fun f => f.key == key'
  | [] => by simp [replaceIn, hk]
  | f :: rest => by
    unfold replaceIn
    split
    · rename_i hf
      have hne : f.key ≠ key' := fun h => hk ((beq_iff_eq.mp hf).symm.trans h)
      simp [hk, hne]
    · rw [List.find?_cons, List.find?_cons, find?_replaceIn_of_ne hk]

/-- Setting a key does not touch another one. -/
theorem entry_set_of_ne {key' : String} (hk : key ≠ key') :
    Cache.entry? (c.set now key v lifetime) key' = c.entry? key' :=
  find?_replaceIn_of_ne hk

theorem entry_remove_of_ne {key' : String} (hk : key ≠ key') : Cache.entry? (c.remove key) key' = c.entry? key' := by
  unfold entry? remove
  rw [List.find?_filter]
  refine congrArg (fun p => c.entries.find? p) (funext fun f => ?_)
  by_cases hf : f.key = key'
  · simp [hf, hk.symm]
  · simp [hf]

/-! ## Reading -/

/-- What is read is null, with the entry removed if there was one, or what stands in an entry. -/
theorem get_cases (c : Cache) (now : Timestamp) (key : String) : c.get now key = (.ok .null, c) ∨
    c.get now key = (.ok .null, c.remove key) ∨ ∃ e ∈ c.entries, e.key = key ∧
      (∀ v, e.content = .value v → c.get now key = (.ok v, c)) ∧ (c.get now key).2 = c := by
  cases he : c.entry? key with
  | none => exact Or.inl (by simp [get, he])
  | some e =>
    by_cases hx : e.isExpired now = true
    · exact Or.inr (Or.inl (by simp [get, he, hx]))
    · have hmem : e ∈ c.entries := List.mem_of_find?_eq_some he
      have hkey : e.key = key := by simpa using List.find?_some he
      refine Or.inr (Or.inr ⟨e, hmem, hkey, fun v hv => by simp [get, he, hx, hv], ?_⟩)
      simp only [get, he, hx, Bool.false_eq_true, if_false]
      split <;> rfl

/-- Reading adds no entry. -/
theorem mem_get (h : e ∈ (c.get now key).2.entries) : e ∈ c.entries := by
  rcases c.get_cases now key with hget | hget | ⟨_, _, _, _, hget⟩
  · rwa [hget] at h
  · rw [hget] at h
    exact (List.mem_filter.mp h).1
  · rwa [hget] at h

/-- Reading a key does not touch another one. -/
theorem entry_get_of_ne {key' : String} (hk : key ≠ key') : Cache.entry? (c.get now key).2 key' = c.entry? key' := by
  rcases c.get_cases now key with hget | hget | ⟨_, _, _, _, hget⟩
  · rw [hget]
  · rw [hget, entry_remove_of_ne hk]
  · rw [hget]

theorem get_of_none (h : c.entry? key = none) : c.get now key = (.ok .null, c) := by
  simp [get, h]

theorem get_of_value (h : c.entry? key = some e) (hv : e.content = .value v) (hx : e.isExpired now = false) :
    c.get now key = (.ok v, c) := by
  simp [get, h, hv, hx]

/-- A value without a lifetime is read. -/
@[simp] theorem get_set : (c.set now key v none).get now' key = (.ok v, c.set now key v none) :=
  get_of_value entry_set rfl rfl

/-- Reading once more reads the same. -/
theorem get_get (c : Cache) (now : Timestamp) (key : String) : (c.get now key).2.get now key = c.get now key := by
  cases h : c.entry? key with
  | none => rw [get_of_none h, get_of_none h]
  | some e =>
    by_cases hx : e.isExpired now = true
    · have hget : c.get now key = (.ok .null, c.remove key) := by simp [get, h, hx]
      rw [hget, get_of_none entry_remove]
    · have hget : (c.get now key).2 = c := by
        simp only [get, h, hx, Bool.false_eq_true, if_false]
        split <;> rfl
      rw [hget]

/-- A short pattern is not refused. -/
theorem refuses_of_short (h : (String.ofList (Wildcard.within pattern.toList)).utf8ByteSize ≤ wildcardCap) :
    c.refuses pattern = false := by
  simp [refuses, Nat.not_lt.mpr h]

end Shelfmark.Cache
