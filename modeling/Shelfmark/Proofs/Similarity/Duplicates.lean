import Mathlib.Data.List.Pairwise
import Mathlib.Data.Multiset.Basic
import Shelfmark.Proofs.Text.Words
import Shelfmark.Similarity.Duplicates

/-!
# Classes of duplicates

Members of a list that are related form a class.  A list of groups holds the classes of some kind (`Classes`) if these
are its groups, no two of them have a member in common, and they stand in the order of their first members.

Grouping by a key gives the classes of the members with one key (`classes_groupBy`), and from a list in another order
the same groups in another order (`sameGroups_groupBy`).  So the groups of duplicates are the classes of bookmarks with
one address and those of bookmarks with one canonical address under several addresses (`duplicates_classes`).
-/

namespace Shelfmark

namespace Text

/-- Lists with the same members have the same members without repetitions. -/
theorem distinct_perm {xs ys : List String} (h : xs.Perm ys) : (distinct xs).Perm (distinct ys) :=
  (List.perm_ext_iff_of_nodup (nodup_distinct xs) (nodup_distinct ys)).mpr fun _ => by
    rw [mem_distinct, mem_distinct, h.mem_iff]

/-- A list has several members without repetitions if two of its members differ. -/
theorem one_lt_length_distinct {xs : List String} :
    1 < (distinct xs).length ↔ ∃ x ∈ xs, ∃ y ∈ xs, x ≠ y := by
  constructor
  · intro h
    match hd : distinct xs, nodup_distinct xs with
    | [], _ => simp [hd] at h
    | [x], _ => simp [hd] at h
    | x :: y :: rest, hn =>
      have hne : x ≠ y := fun he => (List.nodup_cons.mp hn).1 (he ▸ List.mem_cons_self)
      exact ⟨x, mem_distinct.mp (by simp [hd]), y, mem_distinct.mp (by simp [hd]), hne⟩
  · rintro ⟨x, hx, y, hy, hne⟩
    rw [← mem_distinct] at hx hy
    by_contra h
    match hd : distinct xs with
    | [] => simp [hd] at hx
    | [z] =>
      rw [hd, List.mem_singleton] at hx hy
      exact hne (hx.trans hy.symm)
    | _ :: _ :: _ => simp [hd] at h

end Text

namespace Similarity

section Classes

variable {β : Type} {r : β → β → Bool} {kept kept' : List β → Prop} {xs ys g : List β} {gs : List (List β)}
  {key : β → Option String}

/-! ## Classes -/

/-- All members of a list that are related to one of them, as they stand in the list. -/
def IsClass (r : β → β → Bool) (xs g : List β) : Prop := ∃ x ∈ xs, r x x = true ∧ g = xs.filter (r x)

/-- Up to some member of `g` there is no member of `g'`. -/
def StandsBefore (xs g g' : List β) : Prop :=
  ∃ before x behind, xs = before ++ x :: behind ∧ x ∈ g ∧ List.Disjoint (before ++ [x]) g'

/-- The groups are the classes of some kind, each once, in the order of their first members. -/
structure Classes (r : β → β → Bool) (kept : List β → Prop) (xs : List β) (gs : List (List β)) : Prop where
  mem_iff : ∀ g, g ∈ gs ↔ IsClass r xs g ∧ kept g
  disjoint : gs.Pairwise List.Disjoint
  ordered : gs.Pairwise (StandsBefore xs)

theorem Classes.congr (h : Classes r kept xs gs) (hkept : ∀ g, kept g ↔ kept' g) : Classes r kept' xs gs :=
  ⟨fun g => by rw [h.mem_iff, hkept], h.disjoint, h.ordered⟩

/-- Some of the groups are the classes of a narrower kind. -/
theorem Classes.filter (h : Classes r kept xs gs) (p : List β → Bool) :
    Classes r (fun g => kept g ∧ p g = true) xs (gs.filter p) := by
  refine ⟨fun g => ?_, h.disjoint.filter p, h.ordered.filter p⟩
  rw [List.mem_filter, h.mem_iff, and_assoc]

/-- A member lies in one group at most. -/
theorem Classes.unique (h : Classes r kept xs gs) {g g' : List β} {x : β} (hg : g ∈ gs) (hg' : g' ∈ gs) (hx : x ∈ g)
    (hx' : x ∈ g') : g = g' := by
  by_contra hne
  have : Std.Symm (List.Disjoint (α := β)) := ⟨fun _ _ => List.disjoint_symm⟩
  exact h.disjoint.forall hg hg' hne hx hx'

/-! ## Grouping -/

/-- Both have a key, and it is the same. -/
def sameKey (key : β → Option String) (x y : β) : Bool := (key x).any fun k => key y == some k

theorem sameKey_of_eq {k : String} {x : β} (h : key x = some k) : sameKey key x = fun y => key y == some k := by
  funext y
  simp [sameKey, h]

/-- The members with a key, as they are found among the members with their keys. -/
theorem keyed_members (key : β → Option String) (k : String) : ∀ xs : List β,
    ((xs.filterMap fun x => (key x).map (·, x)).filter fun e => e.1 == k).map Prod.snd =
      xs.filter fun x => key x == some k
  | [] => rfl
  | x :: rest => by
    have ih := keyed_members key k rest
    cases hx : key x with
    | none => simpa [hx] using ih
    | some k' =>
      by_cases hk : k' = k
      · simpa [hx, hk] using ih
      · simpa [hx, hk] using ih

theorem groupBy_eq (key : β → Option String) (xs : List β) :
    groupBy key xs = (Text.distinct (xs.filterMap key)).map fun k => xs.filter fun x => key x == some k := by
  have hkeys : (xs.filterMap fun x => (key x).map (·, x)).map Prod.fst = xs.filterMap key := by
    rw [List.map_filterMap]
    refine congrArg (fun f => xs.filterMap f) (funext fun x => ?_)
    cases key x <;> rfl
  simp only [groupBy, hkeys, keyed_members]

/-- In front of the first member with a key there is none with a later key. -/
theorem standsBefore_of_keys {k k' : String} (h : ∃ before behind, xs.filterMap key = before ++ k :: behind ∧
    k' ∉ before) (hne : k ≠ k') :
    StandsBefore xs (xs.filter fun x => key x == some k) (xs.filter fun x => key x == some k') := by
  obtain ⟨before, behind, hkeys, hnot⟩ := h
  obtain ⟨xs₁, xs₂, hsplit, hbefore, hrest⟩ := List.filterMap_eq_append_iff.mp hkeys
  obtain ⟨ys, x, zs, rfl, hnone, hx, _⟩ := List.filterMap_eq_cons_iff.mp hrest
  refine ⟨xs₁ ++ ys, x, zs, by simp [hsplit], ?_, ?_⟩
  · simp [hsplit, hx]
  · intro y hy hmem
    have hk' : key y = some k' := by simpa using (List.mem_filter.mp hmem).2
    simp only [List.append_assoc, List.mem_append, List.mem_singleton] at hy
    rcases hy with hy | hy | rfl
    · exact hnot (hbefore ▸ List.mem_filterMap.mpr ⟨y, hy, hk'⟩)
    · exact absurd ((hnone y hy).symm.trans hk') (by simp)
    · exact hne (Option.some.inj (hx.symm.trans hk'))

/-- **Grouping by a key gives the classes of the members with one key.** -/
theorem classes_groupBy (key : β → Option String) (xs : List β) :
    Classes (sameKey key) (fun _ => True) xs (groupBy key xs) := by
  rw [groupBy_eq]
  refine ⟨fun g => ?_, ?_, ?_⟩
  · simp only [List.mem_map, Text.mem_distinct, List.mem_filterMap, and_true]
    constructor
    · rintro ⟨k, ⟨x, hx, hk⟩, rfl⟩
      exact ⟨x, hx, by simp [sameKey, hk], by rw [sameKey_of_eq hk]⟩
    · rintro ⟨x, hx, hself, rfl⟩
      obtain ⟨k, hk⟩ : ∃ k, key x = some k := by
        cases hk : key x with
        | none => simp [sameKey, hk] at hself
        | some k => exact ⟨k, rfl⟩
      exact ⟨k, ⟨x, hx, hk⟩, by rw [sameKey_of_eq hk]⟩
  · refine List.pairwise_map.mpr ((Text.nodup_distinct _).imp fun {k k'} hne x hx hx' => hne ?_)
    simp only [List.mem_filter, beq_iff_eq] at hx hx'
    exact Option.some.inj (hx.2.symm.trans hx'.2)
  · have hfirsts := Text.firsts_freshFrom [] (xs.filterMap key)
    exact List.pairwise_map.mpr ((hfirsts.and (Text.nodup_distinct _)).imp fun h => standsBefore_of_keys h.1 h.2)

/-! ## Other orders -/

/-- The same groups with the same members, in any order. -/
def SameGroups (gs gs' : List (List β)) : Prop := (gs.map Multiset.ofList).Perm (gs'.map Multiset.ofList)

theorem SameGroups.length_eq {gs gs' : List (List β)} (h : SameGroups gs gs') : gs.length = gs'.length := by
  simpa using List.Perm.length_eq h

/-- **A list in another order has the same groups in another order**, also if only some of the groups are kept. -/
theorem sameGroups_groupBy (key : β → Option String) {p : List β → Bool} (hp : ∀ g g', g.Perm g' → p g = p g')
    (h : xs.Perm ys) : SameGroups ((groupBy key xs).filter p) ((groupBy key ys).filter p) := by
  have hclass : ∀ k, (xs.filter fun x => key x == some k).Perm (ys.filter fun x => key x == some k) :=
    fun k => h.filter _
  have hkept : (p ∘ fun k => xs.filter fun x => key x == some k) = p ∘ fun k => ys.filter fun x => key x == some k :=
    funext fun k => hp _ _ (hclass k)
  have hclasses : (Multiset.ofList ∘ fun k => xs.filter fun x => key x == some k) =
      Multiset.ofList ∘ fun k => ys.filter fun x => key x == some k :=
    funext fun k => Multiset.coe_eq_coe.mpr (hclass k)
  simp only [SameGroups, groupBy_eq, List.filter_map, List.map_map, hkept, hclasses]
  exact ((Text.distinct_perm (h.filterMap key)).filter _).map _

end Classes

/-! ## Duplicates -/

/-- Both have one address. -/
def sameUrl (a b : Bookmark) : Bool := a.url == b.url

/-- Both addresses have a canonical form, and it is the same. -/
def sameCanonicalUrl (a b : Bookmark) : Bool :=
  match Url.canonical? a.url, Url.canonical? b.url with
  | some u, some v => u == v
  | _, _ => false

theorem sameKey_url : sameKey (fun b : Bookmark => some b.url) = sameUrl := by
  funext a b
  simp [sameKey, sameUrl, eq_comm]

theorem sameKey_canonical : sameKey (fun b : Bookmark => Url.canonical? b.url) = sameCanonicalUrl := by
  funext a b
  cases ha : Url.canonical? a.url <;> cases hb : Url.canonical? b.url <;>
    simp [sameKey, sameCanonicalUrl, ha, hb, eq_comm]

/-- Some members of a group have different addresses. -/
def HasSeveralUrls (g : List Bookmark) : Prop := ∃ a ∈ g, ∃ b ∈ g, a.url ≠ b.url

theorem one_lt_urls_iff {g : List Bookmark} : 1 < (Text.distinct (g.map (·.url))).length ↔ HasSeveralUrls g := by
  simp [Text.one_lt_length_distinct, HasSeveralUrls]

/-- **The groups of duplicates are the classes of bookmarks with one address that have several members, and the classes
of bookmarks with one canonical address that have several addresses.**  A bookmark lies in one group of each kind at
most, and bookmarks in another order have the same groups. -/
theorem duplicates_classes (bs : List Bookmark) :
    Classes sameUrl (fun g => 2 ≤ g.length) bs (duplicates bs).exact ∧
      Classes sameCanonicalUrl HasSeveralUrls bs (duplicates bs).similar ∧
      (∀ g ∈ (duplicates bs).exact, ∀ g' ∈ (duplicates bs).exact, ∀ b, b ∈ g → b ∈ g' → g = g') ∧
      (∀ g ∈ (duplicates bs).similar, ∀ g' ∈ (duplicates bs).similar, ∀ b, b ∈ g → b ∈ g' → g = g') ∧
      (duplicates bs).total = (duplicates bs).exact.length + (duplicates bs).similar.length ∧
      ∀ bs', bs.Perm bs' → SameGroups (duplicates bs).exact (duplicates bs').exact ∧
        SameGroups (duplicates bs).similar (duplicates bs').similar ∧
        (duplicates bs).total = (duplicates bs').total := by
  have hexact : Classes sameUrl (fun g => 2 ≤ g.length) bs (duplicates bs).exact := by
    rw [← sameKey_url]
    refine ((classes_groupBy _ bs).filter _).congr fun g => ?_
    simp only [true_and, decide_eq_true_eq]
    omega
  have hsimilar : Classes sameCanonicalUrl HasSeveralUrls bs (duplicates bs).similar := by
    rw [← sameKey_canonical]
    refine ((classes_groupBy _ bs).filter _).congr fun g => ?_
    rw [true_and, decide_eq_true_eq, one_lt_urls_iff]
  refine ⟨hexact, hsimilar, fun g hg g' hg' b => hexact.unique hg hg', fun g hg g' hg' b => hsimilar.unique hg hg', rfl,
    fun bs' h => ?_⟩
  have hexact' : SameGroups (duplicates bs).exact (duplicates bs').exact :=
    sameGroups_groupBy _ (fun g g' hg => by simp only [hg.length_eq]) h
  have hsimilar' : SameGroups (duplicates bs).similar (duplicates bs').similar :=
    sameGroups_groupBy _ (fun g g' hg => by simp only [(Text.distinct_perm (hg.map _)).length_eq]) h
  refine ⟨hexact', hsimilar', ?_⟩
  simp only [DuplicateReport.total, hexact'.length_eq, hsimilar'.length_eq]

/-- Two bookmarks with one address, one with another form of it, and two with an address that has no canonical form. -/
theorem duplicates_classes_sample :
    let a : Bookmark := { id := "a", url := "https://example.com/page" }
    let b : Bookmark := { id := "b", url := "https://example.com/page" }
    let c : Bookmark := { id := "c", url := "http://www.Example.com/page/?from=feed" }
    let d : Bookmark := { id := "d", url := "javascript:void(0)" }
    let e : Bookmark := { id := "e", url := "javascript:void(0)" }
    let bs := [d, a, c, b, e]
    (duplicates bs).exact.map (·.map (·.id)) = [["d", "e"], ["a", "b"]] ∧
      (duplicates bs).similar.map (·.map (·.id)) = [["a", "c", "b"]] ∧
      Classes sameUrl (fun g => 2 ≤ g.length) bs (duplicates bs).exact ∧
      Classes sameCanonicalUrl HasSeveralUrls bs (duplicates bs).similar ∧ bs.Perm bs.reverse ∧
      SameGroups (duplicates bs).exact (duplicates bs.reverse).exact := by
  intro a b c d e bs
  obtain ⟨hexact, hsimilar, _, _, _, hperm⟩ := duplicates_classes bs
  have hreverse : bs.Perm bs.reverse := bs.reverse_perm.symm
  exact ⟨by decide +kernel, by decide +kernel, hexact, hsimilar, hreverse, (hperm _ hreverse).1⟩

end Similarity

end Shelfmark
