import Shelfmark.Proofs.Fallible
import Shelfmark.Proofs.Json.Bounds
import Shelfmark.Search.Filter

/-!
# Filters

A filter keeps the bookmarks it says yes to, in their order, if it can decide about all of them (`keepWhere_of_ok`), and
else fails (`keepWhere_fails`).  Filters that say the same about every bookmark keep the same (`keepWhere_congr`).

- An active filter cannot decide about a bookmark exactly if it asks for its age and the limit of stale bookmarks is
  outside the calendar (`ActiveFilters.keeps_ok_iff`);
- a special filter asks one thing after the other until one does not hold, and cannot decide exactly if it comes to
  something that nobody knows (`SpecialFilters.keeps_ok_iff`): the age without a limit, or a part of extras or metadata
  that are no objects (`extraField_ok_iff`, `metadataField_ok_iff`).
-/

namespace Shelfmark

variable {p q : Bookmark → Except Fault Bool} {bs : List Bookmark} {b : Bookmark} {limit : Except Fault Timestamp}

/-- A filter has decided. -/
def Decided (r : Except Fault Bool) : Prop := ∃ k, r = .ok k

/-- A filter has decided and says yes. -/
def isYes (r : Except Fault Bool) : Bool :=
  match r with
  | .ok k => k
  | .error _ => false

@[simp] theorem isYes_eq_true {r : Except Fault Bool} : isYes r = true ↔ r = .ok true := by
  rcases r with _ | _ | _ <;> simp [isYes]

theorem decided_ok (k : Bool) : Decided (.ok k) := ⟨k, rfl⟩

theorem decided_map {f : Timestamp → Bool} : Decided (limit.map f) ↔ ∃ t, limit = .ok t := by
  rcases limit with _ | _ <;> simp [Decided, Except.map]

theorem Decided.eq_ok {r : Except Fault Bool} (h : Decided r) : r = .ok (isYes r) := by
  obtain ⟨k, rfl⟩ := h
  rfl

/-- One condition after the other is decided until one does not hold. -/
def Settled (cs : List (Except Fault Bool)) : Prop :=
  ∀ before c after, cs = before ++ c :: after → (∀ d ∈ before, d = .ok true) → Decided c

theorem settled_nil : Settled [] := fun _ _ _ h => absurd h (by simp)

theorem settled_cons {c : Except Fault Bool} {cs : List (Except Fault Bool)} :
    Settled (c :: cs) ↔ Decided c ∧ (c = .ok true → Settled cs) := by
  constructor
  · refine fun h => ⟨h [] c cs rfl fun _ hd => absurd hd List.not_mem_nil, fun hc before d after hcs hall => ?_⟩
    exact h (c :: before) d after (by rw [hcs, List.cons_append]) (List.forall_mem_cons.mpr ⟨hc, hall⟩)
  · rintro ⟨hc, hcs⟩ before d after he hall
    cases before with
    | nil => exact (List.cons.inj he).1 ▸ hc
    | cons c' before =>
      obtain ⟨rfl, hrest⟩ := List.cons.inj he
      obtain ⟨hyes, hall⟩ := List.forall_mem_cons.mp hall
      exact hcs hyes before d after hrest hall

theorem settled_of_decided {cs : List (Except Fault Bool)} (h : ∀ c ∈ cs, Decided c) : Settled cs :=
  fun before c _ he _ => h c (he ▸ List.mem_append_right before List.mem_cons_self)

/-- Conditions that are looked at one after the other are decided exactly if they are settled. -/
theorem decided_allM : ∀ {cs : List (Except Fault Bool)}, Decided (cs.allM id) ↔ Settled cs
  | [] => ⟨fun _ => settled_nil, fun _ => decided_ok true⟩
  | c :: cs => by
    rw [settled_cons, ← decided_allM]
    rcases c with e | _ | _ <;> simp [Decided, bind, Except.bind, pure, Except.pure]

/-- A filter that can decide keeps what it says yes to. -/
theorem keepWhere_of_ok : ∀ {bs : List Bookmark}, (∀ b ∈ bs, Decided (p b)) →
    keepWhere p bs = .ok (bs.filter fun b => isYes (p b))
  | [], _ => rfl
  | b :: bs, h => by
    have hrest := keepWhere_of_ok fun c hc => h c (List.mem_cons_of_mem b hc)
    rw [keepWhere, (h b List.mem_cons_self).eq_ok, hrest]
    cases hb : isYes (p b) <;> simp [hb] <;> rfl

/-- A filter that is a predicate keeps what satisfies it. -/
theorem keepWhere_eq_filter {k : Bookmark → Bool} (h : ∀ b ∈ bs, p b = .ok (k b)) :
    keepWhere p bs = .ok (bs.filter k) := by
  rw [keepWhere_of_ok fun b hb => ⟨k b, h b hb⟩]
  exact congrArg Except.ok (List.filter_congr fun b hb => by rw [h b hb]; rfl)

/-- Filters that say the same about every bookmark of a list keep the same of it. -/
theorem keepWhere_congr : ∀ {bs : List Bookmark}, (∀ b ∈ bs, p b = q b) → keepWhere p bs = keepWhere q bs
  | [], _ => rfl
  | b :: bs, h => by
    have hrest := keepWhere_congr fun c hc => h c (List.mem_cons_of_mem b hc)
    rw [keepWhere, keepWhere, h b List.mem_cons_self, hrest]

/-- A filter that cannot decide about a bookmark fails. -/
theorem keepWhere_fails (hb : b ∈ bs) (h : ¬Decided (p b)) : ∃ e, keepWhere p bs = .error e := by
  induction bs with
  | nil => cases hb
  | cons c rest ih =>
    cases hc : p c with
    | error e => exact ⟨e, by rw [keepWhere, hc]; rfl⟩
    | ok k =>
      have hmem : b ∈ rest := by
        refine (List.mem_cons.mp hb).resolve_left ?_
        rintro rfl
        exact h ⟨k, hc⟩
      obtain ⟨e, he⟩ := ih hmem
      exact ⟨e, by rw [keepWhere, hc, he]; rfl⟩

/-- One filter after the other keeps what both say yes to, if each can decide about all that comes to it. -/
theorem keepWhere_both (hp : ∀ b ∈ bs, Decided (p b)) (hq : ∀ b ∈ bs, p b = .ok true → Decided (q b)) :
    keepWhere p bs >>= keepWhere q = .ok (bs.filter fun b => isYes (p b) && isYes (q b)) := by
  have hkept : ∀ b ∈ bs.filter fun b => isYes (p b), Decided (q b) := fun b hb => by
    obtain ⟨hb, hyes⟩ := List.mem_filter.mp hb
    exact hq b hb (isYes_eq_true.mp hyes)
  rw [keepWhere_of_ok hp]
  show keepWhere q _ = _
  rw [keepWhere_of_ok hkept, List.filter_filter]
  simp only [Bool.and_comm]

theorem keepWhere_both_fails (hb : b ∈ bs) (h : ¬(Decided (p b) ∧ (p b = .ok true → Decided (q b)))) :
    ∃ e, keepWhere p bs >>= keepWhere q = .error e := by
  by_cases hp : ∀ b ∈ bs, Decided (p b)
  · have hq : p b = .ok true ∧ ¬Decided (q b) := by simpa [hp b hb] using h
    rw [keepWhere_of_ok hp]
    exact keepWhere_fails (List.mem_filter.mpr ⟨hb, isYes_eq_true.mpr hq.1⟩) hq.2
  · simp only [Classical.not_forall] at hp
    obtain ⟨c, hc, hn⟩ := hp
    obtain ⟨e, he⟩ := keepWhere_fails hc hn
    exact ⟨e, by rw [he]; rfl⟩

namespace Query

/-- **An active filter cannot decide exactly if it asks for the age of the bookmark and has no limit.** -/
theorem ActiveFilters.keeps_ok_iff {f : ActiveFilters} : Decided (f.keeps limit b) ↔
    (f.fitsNames b = true → f.stale = true → ∃ t, limit = .ok t) := by
  unfold keeps
  split <;> rename_i hn
  · split <;> rename_i hs
    · simp [hn, hs, decided_map]
    · simp [hs, decided_ok]
  · simp [hn, decided_ok]

/-- **A special filter can decide exactly if what it comes to is known.** -/
theorem SpecialFilters.keeps_ok_iff {f : SpecialFilters} :
    Decided (f.keeps limit b) ↔ Settled (f.conditions limit b) := decided_allM

/-- Filters that are not set keep everything. -/
theorem SpecialFilters.keeps_of_isEmpty {f : SpecialFilters} (h : f.isEmpty = true) : f.keeps limit b = .ok true := by
  rw [show f = {} by simpa [isEmpty] using h]
  rfl

end Query

/-! ## Extras and metadata -/

/-- A value has fields if it is an object. -/
theorem fieldOf_ok_iff {v : Json} {key : String} :
    (∃ w, Bookmark.fieldOf v key = .ok w) ↔ ∃ fields, v = .obj fields := by
  cases v <;> simp [Bookmark.fieldOf]

/-- What counts as false stands for an empty object. -/
theorem nested_isObject_iff {key : String} {fields : List (String × Json)} :
    (∃ inner, Bookmark.nested key fields = .obj inner) ↔
      ∀ v, Json.lookup key fields = some v → v.isTrue = true → ∃ inner, v = .obj inner := by
  unfold Bookmark.nested
  cases Json.lookup key fields with
  | none => simp
  | some v => by_cases hv : v.isTrue = true <;> simp [hv]

/-- **Extras can be asked for a part unless they count as true and are no object.** -/
theorem extraField_ok_iff {key : String} : (∃ v, b.extraField key = .ok v) ↔
    ∀ v, Json.lookup "extra" b.platformData = some v → v.isTrue = true → ∃ inner, v = .obj inner := by
  rw [Bookmark.extraField, fieldOf_ok_iff, Bookmark.extra, nested_isObject_iff]

/-- **Metadata can be asked for a part of a group unless the group counts as true and is no object.** -/
theorem metadataField_ok_iff {group key : String} : (∃ v, b.metadataField group key = .ok v) ↔
    ∀ v, Json.lookup group b.rawMetadata = some v → v.isTrue = true → ∃ inner, v = .obj inner := by
  rw [Bookmark.metadataField, fieldOf_ok_iff, nested_isObject_iff]

/-- Pictures are found or not if all their places are known. -/
theorem decided_anyM : ∀ {places : List (Except Fault Json)}, (∀ v ∈ places, ∃ w, v = .ok w) →
    Decided (places.anyM fun v => v.map Json.isTrue)
  | [], _ => decided_ok false
  | v :: places, h => by
    obtain ⟨⟨w, rfl⟩, hrest⟩ := List.forall_mem_cons.mp h
    rw [List.anyM]
    show Decided (match w.isTrue with
      | true => .ok true
      | false => places.anyM fun v => v.map Json.isTrue)
    split
    · exact decided_ok true
    · exact decided_anyM hrest

theorem decided_textFound {filter : Option String} {text : Except Fault String} (h : ∃ t, text = .ok t) :
    Decided (Query.SpecialFilters.textFound filter text) := by
  obtain ⟨t, rfl⟩ := h
  unfold Query.SpecialFilters.textFound
  split
  · split <;> exact ⟨_, rfl⟩
  · exact decided_ok true

theorem decided_answerFound {filter : Option Bool} {answer : Except Fault Bool} (h : Decided answer) :
    Decided (Query.SpecialFilters.answerFound filter answer) := by
  obtain ⟨k, rfl⟩ := h
  cases filter <;> exact ⟨_, rfl⟩

/-- Extras are an object that is spelled, and so are the groups of metadata that name pictures objects, as far as they
count as true. -/
structure Bookmark.Legible (b : Bookmark) : Prop where
  extra : ∀ v, Json.lookup "extra" b.platformData = some v → v.isTrue = true → ∃ fields, v = .obj fields
  spelled : Json.Within usualRoom b.extra
  openGraph : ∀ v, Json.lookup "openGraph" b.rawMetadata = some v → v.isTrue = true → ∃ fields, v = .obj fields
  twitterCard : ∀ v, Json.lookup "twitterCard" b.rawMetadata = some v → v.isTrue = true → ∃ fields, v = .obj fields

/-- A bookmark without extras and metadata. -/
theorem Bookmark.legible_of_nil (hp : b.platformData = []) (hr : b.rawMetadata = []) : b.Legible := by
  have hnone : ∀ key v, Json.lookup key [] = some v → v.isTrue = true → ∃ fields, v = .obj fields := by
    intro key v hv
    cases hv
  have hextra : b.extra = .obj [] := by
    rw [extra, hp]
    rfl
  refine ⟨hp ▸ hnone "extra", ?_, hr ▸ hnone "openGraph", hr ▸ hnone "twitterCard"⟩
  rw [hextra]
  exact .obj fun _ hf => absurd hf List.not_mem_nil

namespace Bookmark.Legible

variable (h : b.Legible)
include h

theorem extraField_eq (key : String) : b.extraField key = .ok (b.extra.get key) := by
  have hknown : ∃ v, b.extraField key = .ok v := extraField_ok_iff.mpr h.extra
  obtain ⟨fields, he⟩ := fieldOf_ok_iff.mp hknown
  rw [extraField, he]
  rfl

theorem display_extraField (key : String) :
    (b.extra.get key).display usualRoom = .ok (b.extra.get key).plainText :=
  Json.display_of_within (h.spelled.get key)

theorem repoName_ok : ∃ name, b.repoName = .ok name := by
  rw [repoName, h.extraField_eq, h.extraField_eq]
  simp only [bind, Except.bind, h.display_extraField]
  split <;> exact ⟨_, rfl⟩

theorem playlist_ok : ∃ name, b.playlist = .ok name := by
  rw [playlist, h.extraField_eq]
  simp only [bind, Except.bind, h.display_extraField]
  split <;> exact ⟨_, rfl⟩

theorem hasImage_ok : Decided b.hasImage := by
  refine decided_anyM ?_
  simp only [pictures, List.forall_mem_cons]
  exact ⟨extraField_ok_iff.mpr h.extra, metadataField_ok_iff.mpr h.openGraph,
    metadataField_ok_iff.mpr h.twitterCard, fun _ hv => absurd hv List.not_mem_nil⟩

/-- **A special filter decides about a bookmark whose extras and metadata are objects,** if the limit of stale bookmarks
lies in the calendar or it does not ask for it. -/
theorem settled {f : Query.SpecialFilters} (hlimit : f.stale = some true → ∃ t, limit = .ok t) :
    Settled (f.conditions limit b) := by
  refine settled_of_decided ?_
  simp only [Query.SpecialFilters.conditions, List.forall_mem_cons]
  refine ⟨decided_ok _, ?_, decided_ok _, decided_textFound h.repoName_ok, decided_ok _,
    decided_answerFound h.hasImage_ok, decided_textFound h.playlist_ok, fun _ hc => absurd hc List.not_mem_nil⟩
  split <;> rename_i hs
  · exact decided_map.mpr (hlimit (by simpa using hs))
  · exact decided_ok true

end Bookmark.Legible

end Shelfmark
