import Mathlib.Data.List.Nodup
import Shelfmark.Proofs.Order.Stable
import Shelfmark.Proofs.Similarity.Duplicates
import Shelfmark.Proofs.Time.Calendar
import Shelfmark.Search.Facets

/-!
# What the facets count

Each facet takes some values from each bookmark, and its numbers are the numbers of their occurrences
(`counts_count`): of bookmarks with the value, or of occurrences for topics, of which a bookmark may have several
(`FacetKind.number`).  These numbers are sums over the bookmarks, so that lists that are put together have the sums of
their numbers, in any order.  The list of a facet holds each value once, the most frequent first, and of values with one
number the one that was seen first (`isRanking_ranked`).

A key of a creator is parted again as long as the platform has no colon (`splitKey_append`).  The periods lie one within
the other, whatever the calendar says (`DateCounts.Exact.nested`).  `facets_exact` puts these together.
-/

namespace Shelfmark

/-! ## Numbers of values -/

namespace Text

variable {xs : List String} {v : String} {n : Nat}

theorem mem_tally : (v, n) ∈ tally xs ↔ n = xs.count v ∧ 0 < n := by
  simp only [tally, List.mem_map, mem_distinct, Prod.mk.injEq]
  constructor
  · rintro ⟨_, hv, rfl, rfl⟩
    exact ⟨rfl, List.count_pos_iff.mpr hv⟩
  · rintro ⟨rfl, hpos⟩
    exact ⟨v, List.count_pos_iff.mp hpos, rfl, rfl⟩

theorem keys_tally (xs : List String) : (tally xs).map Prod.fst = distinct xs := by
  simp [tally, Function.comp_def]

/-- The number of a value among values with their numbers, zero if it is not there. -/
def numberIn (v : String) (entries : List (String × Nat)) : Nat :=
  ((entries.find? fun e => e.1 == v).map Prod.snd).getD 0

/-- The number of a value is that of its occurrences, also if there are none. -/
theorem numberIn_tally (xs : List String) (v : String) : numberIn v (tally xs) = xs.count v := by
  have hfound : (tally xs).find? (fun e => e.1 == v) =
      ((distinct xs).find? fun x => x == v).map fun x => (x, xs.count x) := List.find?_map
  rw [numberIn, hfound]
  cases hv : (distinct xs).find? fun x => x == v with
  | some x =>
    obtain rfl : x = v := by simpa using List.find?_some hv
    rfl
  | none =>
    have hnot : v ∉ xs := fun h => by simpa using List.find?_eq_none.mp hv v (mem_distinct.mpr h)
    exact (List.count_eq_zero_of_not_mem hnot).symm

/-- A value occurs, and the other one does not occur earlier. -/
def SeenBefore (xs : List String) (a b : String) : Prop := ∃ before behind, xs = before ++ a :: behind ∧ b ∉ before

/-- The values of a list with the numbers of their occurrences, each value once, the most frequent first, and of values
with one number the one that was seen first. -/
structure IsRanking (xs : List String) (entries : List (String × Nat)) : Prop where
  mem_iff : ∀ v n, (v, n) ∈ entries ↔ n = xs.count v ∧ 0 < n
  nodup : (entries.map Prod.fst).Nodup
  ordered : entries.Pairwise fun a b => b.2 < a.2 ∨ a.2 = b.2 ∧ SeenBefore xs a.1 b.1

end Text

namespace Search

open Text

/-- **The numbers of values are ranked.** -/
theorem isRanking_ranked (xs : List String) : IsRanking xs (Facets.ranked (tally xs)) := by
  have hsorted : StablySorted (fun a b : String × Nat => decide (b.2 ≤ a.2)) (tally xs) (Facets.ranked (tally xs)) :=
    stablySorted_mergeSort (fun a b c hab hbc => by
        simp only [decide_eq_true_eq] at hab hbc ⊢
        exact Nat.le_trans hbc hab)
      (fun a b => by simpa using Nat.le_total b.2 a.2) fun _ _ _ _ => rfl
  have hkeys : ((Facets.ranked (tally xs)).map Prod.fst).Nodup := by
    rw [(hsorted.perm.map Prod.fst).nodup_iff, keys_tally]
    exact nodup_distinct xs
  refine ⟨fun v n => by rw [hsorted.perm.mem_iff, mem_tally], hkeys, ?_⟩
  have hnodup := List.Nodup.of_map Prod.fst hkeys
  have hfirst : (tally xs).Pairwise fun a b => SeenBefore xs a.1 b.1 := by
    rw [← List.pairwise_map (f := Prod.fst), keys_tally]
    exact firsts_freshFrom [] xs
  refine List.pairwise_iff_forall_sublist.mpr fun {a b} hab => ?_
  have hle : b.2 ≤ a.2 := by simpa using List.pairwise_iff_forall_sublist.mp hsorted.sorted hab
  rcases Nat.lt_or_eq_of_le hle with hlt | heq
  · exact .inl hlt
  · have hsub : [a, b].Sublist (tally xs) :=
      hsorted.pair_sublist (hsorted.perm.nodup_iff.mp hnodup) hab (by simp [heq])
    exact .inr ⟨heq.symm, List.pairwise_iff_forall_sublist.mp hfirst hsub⟩

/-! ## Facets -/

/-- The facets that are counted by value. -/
inductive FacetKind where
  | domain
  | folder
  | topic
  | creator
  | contentType

namespace FacetKind

/-- The values of a facet among some bookmarks, in the order in which they are seen. -/
def values (bs : List Bookmark) : FacetKind → List String
  | domain => nonEmpty (bs.map (·.domain))
  | folder => nonEmpty (bs.map (·.folderPath))
  | topic => bs.flatMap (·.topics)
  | creator => (bs.filter fun b => !b.creator.isEmpty).map (·.creatorKey)
  | contentType => nonEmpty (bs.map (·.contentType))

/-- The number of bookmarks that have a value; for topics the number of times that they have it. -/
def number (bs : List Bookmark) (v : String) : FacetKind → Nat
  | domain => bs.countP fun b => !b.domain.isEmpty && b.domain == v
  | folder => bs.countP fun b => !b.folderPath.isEmpty && b.folderPath == v
  | topic => (bs.flatMap (·.topics)).count v
  | creator => bs.countP fun b => !b.creator.isEmpty && b.creatorKey == v
  | contentType => bs.countP fun b => !b.contentType.isEmpty && b.contentType == v

/-- The name of the list of a facet. -/
def listName : FacetKind → String
  | domain => "domains"
  | folder => "folders"
  | topic => "topics"
  | creator => "creators"
  | contentType => "contentTypes"

/-- The name of the values in the list of a facet. -/
def valueName : FacetKind → String
  | domain => "domain"
  | folder => "folder"
  | topic => "topic"
  | creator => "key"
  | contentType => "type"

variable {bs bs' : List Bookmark} (k : FacetKind) (v : String)

/-- The values that are seen are those that the bookmarks have. -/
theorem count_values : (k.values bs).count v = k.number bs v := by
  cases k <;> simp only [values, number, nonEmpty, List.count, List.countP_filter, List.countP_map, Function.comp_def,
    Bool.and_comm]

/-- Lists that are put together have the sums of their numbers. -/
theorem number_append : k.number (bs ++ bs') v = k.number bs v + k.number bs' v := by
  cases k <;> simp [number]

/-- The numbers do not depend on the order of the bookmarks. -/
theorem number_perm (h : bs.Perm bs') : k.number bs v = k.number bs' v := by
  cases k with
  | topic => exact (h.flatMap fun _ _ => List.Perm.refl _).count_eq v
  | domain | folder | creator | contentType => exact h.countP_eq _

end FacetKind

/-- The values of a facet with their numbers. -/
def Facets.counts (f : Facets) : FacetKind → List (String × Nat)
  | .domain => f.domains
  | .folder => f.folders
  | .topic => f.topics
  | .creator => f.creators
  | .contentType => f.contentTypes

/-- The number of a value of a facet, zero if it is not there. -/
def Facets.numberOf (f : Facets) (k : FacetKind) (v : String) : Nat := numberIn v (f.counts k)

theorem counts_count (p : Periods) (bs : List Bookmark) (k : FacetKind) :
    (Facets.count p bs).counts k = tally (k.values bs) := by
  cases k <;> rfl

theorem numberOf_count (p : Periods) (bs : List Bookmark) (k : FacetKind) (v : String) :
    (Facets.count p bs).numberOf k v = k.number bs v := by
  rw [Facets.numberOf, counts_count, numberIn_tally, k.count_values]

/-! ## The latest bookmark of a domain -/

/-- The latest time is one of the times, and none of them is later. -/
theorem exists_latest : ∀ (best : Timestamp) (ts : List Timestamp), ∃ t, latest (some best) ts = some t ∧
    t ∈ best :: ts ∧ ∀ s ∈ best :: ts, s.le t = true
  | best, [] => ⟨best, rfl, List.mem_singleton_self best, by simp [Timestamp.le]⟩
  | best, s :: rest => by
    obtain ⟨t, ht, hmem, hle⟩ := exists_latest (if best.lt s then s else best) rest
    obtain ⟨hchosen, hrest⟩ := List.forall_mem_cons.mp hle
    simp only [Timestamp.le, Timestamp.lt, decide_eq_true_eq] at hchosen hmem
    refine ⟨t, ht, ?_, ?_⟩
    · rcases List.mem_cons.mp hmem with rfl | hmem
      · split <;> simp
      · exact List.mem_cons_of_mem _ (List.mem_cons_of_mem _ hmem)
    · simp only [List.forall_mem_cons, Timestamp.le, decide_eq_true_eq]
      refine ⟨?_, ?_, fun s' hs' => by simpa [Timestamp.le] using hrest s' hs'⟩ <;>
      · split at hchosen <;> omega

/-- The time of the latest bookmark of a domain is that of one of its bookmarks, and none of them is later. -/
structure IsLatest (bs : List Bookmark) (d : String) (t : Timestamp) : Prop where
  mem : ∃ b ∈ bs, b.domain = d ∧ b.dateAdded = t
  le : ∀ b ∈ bs, b.domain = d → b.dateAdded.le t = true

theorem exists_isLatest {bs : List Bookmark} {d : String} (h : d ∈ FacetKind.domain.values bs) :
    ∃ t, latest none ((bs.filter fun b => b.domain == d).map (·.dateAdded)) = some t ∧ IsLatest bs d t := by
  have hmem : ∀ t, t ∈ (bs.filter fun b => b.domain == d).map (·.dateAdded) ↔
      ∃ b ∈ bs, b.domain = d ∧ b.dateAdded = t := by
    simp [and_assoc]
  obtain ⟨b, hb, rfl⟩ := List.mem_map.mp (List.mem_filter.mp h).1
  match hts : (bs.filter fun c => c.domain == b.domain).map (·.dateAdded) with
  | [] => exact absurd ((hmem b.dateAdded).mpr ⟨b, hb, rfl, rfl⟩) (by simp [hts])
  | s :: rest =>
    obtain ⟨t, ht, htmem, hle⟩ := exists_latest s rest
    rw [hts] at hmem
    refine ⟨t, hts ▸ ht, (hmem t).mp htmem, fun c hc hd => hle _ ((hmem _).mpr ⟨c, hc, hd, rfl⟩)⟩

/-- The domains with the times of their latest bookmarks are the domains that are counted. -/
theorem latestByDomain_spec (bs : List Bookmark) :
    (Facets.latestByDomain bs).map Prod.fst = distinct (FacetKind.domain.values bs) ∧
      ∀ d t, (d, t) ∈ Facets.latestByDomain bs → IsLatest bs d t := by
  refine ⟨?_, fun d t h => ?_⟩
  · rw [Facets.latestByDomain, List.map_filterMap]
    refine (List.filterMap_congr fun d hd => ?_).trans List.filterMap_some
    obtain ⟨t, ht, _⟩ := exists_isLatest (mem_distinct.mp hd)
    simp [ht]
  · obtain ⟨d', hd', hentry⟩ := List.mem_filterMap.mp h
    obtain ⟨t', ht', hlatest⟩ := exists_isLatest (mem_distinct.mp hd')
    rw [ht'] at hentry
    cases hentry
    exact hlatest

/-! ## Creators -/

/-- **A key whose platform has no colon is parted again.** -/
theorem splitKey_append {platform creator : String} (h : ':' ∉ platform.toList) :
    Facets.splitKey (platform ++ ":" ++ creator) = (platform, creator) := by
  have hkeep : ∀ c ∈ platform.toList, (c != ':') = true := fun c hc => by
    simpa using fun he : c = ':' => h (he ▸ hc)
  have hkey : (platform ++ ":" ++ creator).toList = platform.toList ++ ':' :: creator.toList := by
    simp [String.toList_append]
  simp [Facets.splitKey, hkey, List.takeWhile_append_of_pos hkeep, List.dropWhile_append_of_pos hkeep]

theorem colon_not_mem_platformName {b : Bookmark} (h : ':' ∉ b.platform.toList) : ':' ∉ b.platformName.toList := by
  unfold Bookmark.platformName
  split
  · decide
  · exact h

/-- The number of bookmarks of a creator on a platform. -/
def numberBy (bs : List Bookmark) (platform creator : String) : Nat :=
  bs.countP fun b => !b.creator.isEmpty && (b.platformName == platform && b.creator == creator)

/-- The pairs of platforms and creators with their numbers, each pair once. -/
structure CountsPairs (bs : List Bookmark) (pairs : List ((String × String) × Nat)) : Prop where
  mem_iff : ∀ platform creator n, ((platform, creator), n) ∈ pairs ↔ n = numberBy bs platform creator ∧ 0 < n
  nodup : (pairs.map Prod.fst).Nodup

/-- An entry of the list of creators. -/
def creatorEntry (e : (String × String) × Nat) : Json :=
  .obj [("key", .str (e.1.1 ++ ":" ++ e.1.2)), ("creator", .str e.1.2), ("platform", .str e.1.1), ("count", .int e.2)]

section Creators

variable {bs : List Bookmark}

/-- A key of a creator is made of the platform and the creator of a bookmark. -/
theorem exists_of_mem_keys {key : String} (h : key ∈ FacetKind.creator.values bs) :
    ∃ b ∈ bs, b.creator ≠ "" ∧ b.creatorKey = key := by
  obtain ⟨b, hb, rfl⟩ := List.mem_map.mp h
  obtain ⟨hb, hc⟩ := List.mem_filter.mp hb
  exact ⟨b, hb, by simpa using hc, rfl⟩

theorem splitKey_creatorKey {b : Bookmark} (h : ':' ∉ b.platform.toList) :
    Facets.splitKey b.creatorKey = (b.platformName, b.creator) :=
  splitKey_append (colon_not_mem_platformName h)

/-- Where no platform has a colon, the number of a key is that of its platform and creator. -/
theorem number_key (hcolon : ∀ b ∈ bs, ':' ∉ b.platform.toList) {b : Bookmark} (hb : b ∈ bs) :
    FacetKind.creator.number bs b.creatorKey = numberBy bs b.platformName b.creator := by
  refine List.countP_congr fun c hc => ?_
  have hkey : c.creatorKey = b.creatorKey ↔ c.platformName = b.platformName ∧ c.creator = b.creator := by
    constructor
    · intro he
      have hsplit := congrArg Facets.splitKey he
      rw [splitKey_creatorKey (hcolon c hc), splitKey_creatorKey (hcolon b hb)] at hsplit
      exact Prod.mk.inj hsplit
    · rintro ⟨hp, hc⟩
      rw [Bookmark.creatorKey, hp, hc, Bookmark.creatorKey]
  simp [hkey]

/-- An entry of the list of creators has the key of a bookmark, and is parted into its platform and its creator. -/
theorem exists_of_mem_ranked (hcolon : ∀ b ∈ bs, ':' ∉ b.platform.toList) {e : String × Nat}
    (he : e ∈ Facets.ranked (tally (FacetKind.creator.values bs))) : ∃ b ∈ bs, e.1 = b.creatorKey ∧
      Facets.splitKey e.1 = (b.platformName, b.creator) ∧ e.2 = numberBy bs b.platformName b.creator := by
  obtain ⟨key, n⟩ := e
  obtain ⟨rfl, hpos⟩ := ((isRanking_ranked _).mem_iff key n).mp he
  obtain ⟨b, hb, _, rfl⟩ := exists_of_mem_keys (List.count_pos_iff.mp hpos)
  exact ⟨b, hb, rfl, splitKey_creatorKey (hcolon b hb), by rw [FacetKind.count_values, number_key hcolon hb]⟩

/-- The pairs that the keys are parted into are the pairs of the bookmarks, each once. -/
theorem countsPairs_parted (hcolon : ∀ b ∈ bs, ':' ∉ b.platform.toList) : CountsPairs bs
    ((Facets.ranked (tally (FacetKind.creator.values bs))).map fun e => (Facets.splitKey e.1, e.2)) := by
  obtain ⟨hmem, hnodup, _⟩ := isRanking_ranked (FacetKind.creator.values bs)
  refine ⟨fun platform creator n => ⟨fun h => ?_, ?_⟩, ?_⟩
  · obtain ⟨⟨key, n'⟩, he, heq⟩ := List.mem_map.mp h
    obtain ⟨b, _, _, hsplit, hn⟩ := exists_of_mem_ranked hcolon he
    simp only [hsplit, Prod.mk.injEq] at heq
    obtain ⟨⟨rfl, rfl⟩, rfl⟩ := heq
    exact ⟨hn, ((hmem _ _).mp he).2⟩
  · rintro ⟨rfl, hpos⟩
    obtain ⟨b, hb, hp⟩ := List.countP_pos_iff.mp hpos
    simp only [Bool.and_eq_true, beq_iff_eq] at hp
    obtain ⟨_, rfl, rfl⟩ := hp
    have hn := (FacetKind.creator.count_values b.creatorKey).trans (number_key hcolon hb)
    exact List.mem_map.mpr ⟨(b.creatorKey, numberBy bs b.platformName b.creator), (hmem _ _).mpr ⟨hn.symm, hpos⟩,
      by simp only [splitKey_creatorKey (hcolon b hb)]⟩
  · rw [List.map_map]
    refine (List.Nodup.of_map Prod.fst hnodup).map_on fun e he e' he' heq => ?_
    obtain ⟨b, _, hkey, hsplit, hn⟩ := exists_of_mem_ranked hcolon he
    obtain ⟨b', _, hkey', hsplit', hn'⟩ := exists_of_mem_ranked hcolon he'
    simp only [Function.comp_apply, hsplit, hsplit', Prod.mk.injEq] at heq
    refine Prod.ext ?_ (by rw [hn, hn', heq.1, heq.2])
    rw [hkey, hkey', Bookmark.creatorKey, heq.1, heq.2, Bookmark.creatorKey]

/-- **The list of creators gives back the pairs of platforms and creators**, each pair once with its number. -/
theorem exists_countsPairs (p : Periods) (hcolon : ∀ b ∈ bs, ':' ∉ b.platform.toList) : ∃ pairs,
    CountsPairs bs pairs ∧ (Facets.count p bs).creatorsJson = .arr (pairs.map creatorEntry) := by
  refine ⟨_, countsPairs_parted hcolon, ?_⟩
  rw [List.map_map]
  refine congrArg Json.arr (List.map_congr_left fun e he => ?_)
  obtain ⟨b, _, hkey, hsplit, _⟩ := exists_of_mem_ranked hcolon he
  simp only [Function.comp_apply, creatorEntry, hsplit]
  rw [hkey, Bookmark.creatorKey]

end Creators

/-! ## Lists -/

/-- The list of a facet ranks the values: each of its entries gives a value and its number. -/
def IsListed (bs : List Bookmark) (k : FacetKind) (f : Facets) : Prop :=
  ∃ entries items, IsRanking (k.values bs) entries ∧ f.toJson.get k.listName = .arr items ∧
    items.map (fun item => (item.get k.valueName, item.get "count")) =
      entries.map fun e => (Json.str e.1, Json.int e.2)

theorem isListed_count (p : Periods) (bs : List Bookmark) (k : FacetKind) : IsListed bs k (Facets.count p bs) := by
  have hranking := isRanking_ranked (k.values bs)
  cases k <;>
  · refine ⟨_, _, hranking, rfl, ?_⟩
    rw [List.map_map]
    exact List.map_congr_left fun _ _ => rfl

/-! ## Periods -/

section Periods

variable {now : Timestamp} {p : Periods} {bs bs' : List Bookmark} {d : DateCounts}

/-- The periods of a time go back some days from it, and to the midnights that begin its month and its year. -/
structure Periods.EndAt (now : Timestamp) (p : Periods) : Prop where
  week : p.week.instant = now.instant - 7 * microsPerDay
  twoWeek : p.twoWeek.instant = now.instant - 14 * microsPerDay
  threeMonth : p.threeMonth.instant = now.instant - 90 * microsPerDay
  sixMonth : p.sixMonth.instant = now.instant - 180 * microsPerDay
  month : now.BeginsMonth now.date.month p.month
  year : now.BeginsMonth 1 p.year

theorem Periods.endAt_of_at (h : Periods.at now = .ok p) : p.EndAt now := by
  obtain ⟨month, hmonth, hbegin⟩ := now.exists_startOfMonth
  obtain ⟨year, hyear, hbegin'⟩ := now.exists_startOfYear
  simp only [Periods.at, bind_eq_ok, hmonth, hyear, Periods.midnight, Except.ok.injEq, exists_eq_left'] at h
  obtain ⟨week, hweek, twoWeek, htwoWeek, threeMonth, hthreeMonth, sixMonth, hsixMonth, h⟩ := h
  cases h
  exact ⟨(Timestamp.instant_of_daysBefore hweek).1, (Timestamp.instant_of_daysBefore htwoWeek).1,
    (Timestamp.instant_of_daysBefore hthreeMonth).1, (Timestamp.instant_of_daysBefore hsixMonth).1, hbegin, hbegin'⟩

/-- **A time has its periods exactly if the calendar reaches back 180 days from it.** -/
theorem Periods.exists_at_iff : (∃ p, Periods.at now = .ok p) ↔ 180 * microsPerDay ≤ now.localMicros := by
  have hback : ∀ days : Nat, days ≤ 180 →
      ((∃ s, now.daysBefore days = .ok s) ↔ (days * microsPerDay : Int) ≤ now.localMicros) := fun days hdays =>
    Timestamp.exists_daysBefore_iff (Nat.le_trans hdays (by decide))
  constructor
  · rintro ⟨p, h⟩
    simp only [Periods.at, bind_eq_ok] at h
    obtain ⟨_, _, _, _, _, _, sixMonth, hsixMonth, _⟩ := h
    exact (hback 180 (Nat.le_refl _)).mp ⟨sixMonth, hsixMonth⟩
  · intro h
    have hreach : ∀ days : Nat, days ≤ 180 → ∃ s, now.daysBefore days = .ok s := fun days hdays =>
      (hback days hdays).mpr (by simp only [microsPerDay] at h ⊢; omega)
    obtain ⟨week, hweek⟩ := hreach 7 (by decide)
    obtain ⟨twoWeek, htwoWeek⟩ := hreach 14 (by decide)
    obtain ⟨threeMonth, hthreeMonth⟩ := hreach 90 (by decide)
    obtain ⟨sixMonth, hsixMonth⟩ := hreach 180 (by decide)
    obtain ⟨month, hmonth, _⟩ := now.exists_startOfMonth
    obtain ⟨year, hyear, _⟩ := now.exists_startOfYear
    refine ⟨⟨week, twoWeek, threeMonth, sixMonth, month, year⟩, ?_⟩
    simp only [Periods.at, bind_eq_ok, hmonth, hyear, Periods.midnight, Except.ok.injEq, exists_eq_left']
    exact ⟨_, hweek, _, htwoWeek, _, hthreeMonth, _, hsixMonth, rfl⟩

/-- The number of bookmarks added after an instant. -/
def addedAfter (bs : List Bookmark) (instant : Int) : Nat := bs.countP fun b => decide (instant < b.dateAdded.instant)

/-- The number of bookmarks added at an instant or after it. -/
def addedSince (bs : List Bookmark) (instant : Int) : Nat := bs.countP fun b => decide (instant ≤ b.dateAdded.instant)

/-- The numbers of bookmarks added in the days before a time, since its month and its year began, and before that. -/
structure DateCounts.Exact (now : Timestamp) (bs : List Bookmark) (d : DateCounts) : Prop where
  week : d.week = addedAfter bs (now.instant - 7 * microsPerDay)
  twoWeek : d.twoWeek = addedAfter bs (now.instant - 14 * microsPerDay)
  threeMonth : d.threeMonth = addedAfter bs (now.instant - 90 * microsPerDay)
  sixMonth : d.sixMonth = addedAfter bs (now.instant - 180 * microsPerDay)
  month : ∃ s, now.BeginsMonth now.date.month s ∧ d.month = addedSince bs s.instant
  year : ∃ s, now.BeginsMonth 1 s ∧ d.year = addedSince bs s.instant ∧
    d.older = bs.countP fun b => decide (b.dateAdded.instant < s.instant)

theorem DateCounts.exact_of (h : p.EndAt now) : (DateCounts.of p bs).Exact now bs where
  week := by rw [← h.week]; rfl
  twoWeek := by rw [← h.twoWeek]; rfl
  threeMonth := by rw [← h.threeMonth]; rfl
  sixMonth := by rw [← h.sixMonth]; rfl
  month := ⟨p.month, h.month, rfl⟩
  year := ⟨p.year, h.year, rfl, List.countP_congr fun b _ => by simp [Timestamp.le]⟩

theorem addedAfter_mono {i j : Int} (h : j ≤ i) : addedAfter bs i ≤ addedAfter bs j :=
  List.countP_mono_left fun b _ hb => by
    simp only [decide_eq_true_eq] at hb ⊢
    omega

theorem addedSince_mono {i j : Int} (h : j ≤ i) : addedSince bs i ≤ addedSince bs j :=
  List.countP_mono_left fun b _ hb => by
    simp only [decide_eq_true_eq] at hb ⊢
    omega

theorem addedSince_le_addedAfter {i j : Int} (h : j < i) : addedSince bs i ≤ addedAfter bs j :=
  List.countP_mono_left fun b _ hb => by
    simp only [decide_eq_true_eq] at hb ⊢
    omega

/-- The periods lie one within the other, and a bookmark was added in this year or before. -/
structure DateCounts.Nested (n : Nat) (d : DateCounts) : Prop where
  week_le : d.week ≤ d.twoWeek
  twoWeek_le : d.twoWeek ≤ d.threeMonth
  threeMonth_le : d.threeMonth ≤ d.sixMonth
  month_le_threeMonth : d.month ≤ d.threeMonth
  month_le_year : d.month ≤ d.year
  year_add_older : d.year + d.older = n

/-- **The periods lie one within the other, whatever the calendar says**: a month has at most 31 days, and a year begins
with its first month. -/
theorem DateCounts.Exact.nested (h : d.Exact now bs) : d.Nested bs.length := by
  have hday : (0 : Int) ≤ microsPerDay := Int.natCast_nonneg _
  obtain ⟨month, hmonth, hmonthCount⟩ := h.month
  obtain ⟨year, hyear, hyearCount, holder⟩ := h.year
  have hafter := hmonth.lt_instant
  refine ⟨?_, ?_, ?_, ?_, ?_, ?_⟩
  · rw [h.week, h.twoWeek]
    exact addedAfter_mono (by omega)
  · rw [h.twoWeek, h.threeMonth]
    exact addedAfter_mono (by omega)
  · rw [h.threeMonth, h.sixMonth]
    exact addedAfter_mono (by omega)
  · rw [hmonthCount, h.threeMonth]
    exact addedSince_le_addedAfter (by omega)
  · rw [hmonthCount, hyearCount]
    exact addedSince_mono (hyear.instant_le hmonth)
  · rw [hyearCount, holder, addedSince, List.length_eq_countP_add_countP fun b : Bookmark =>
      decide (year.instant ≤ b.dateAdded.instant)]
    exact congrArg _ (List.countP_congr fun b _ => by simp)

/-- The numbers of bookmarks of two lists together. -/
instance : Add DateCounts where
  add a b :=
    { week := a.week + b.week
      twoWeek := a.twoWeek + b.twoWeek
      month := a.month + b.month
      threeMonth := a.threeMonth + b.threeMonth
      sixMonth := a.sixMonth + b.sixMonth
      year := a.year + b.year
      older := a.older + b.older }

theorem DateCounts.of_append (p : Periods) (bs bs' : List Bookmark) :
    DateCounts.of p (bs ++ bs') = DateCounts.of p bs + DateCounts.of p bs' := by
  simp only [DateCounts.of, List.countP_append]
  rfl

theorem DateCounts.of_perm (p : Periods) (h : bs.Perm bs') : DateCounts.of p bs = DateCounts.of p bs' := by
  simp only [DateCounts.of, h.countP_eq]

end Periods

/-! ## The facets of some bookmarks -/

/-- The facets say of each value how many bookmarks have it, and of each domain when its latest bookmark was added;
their lists rank the values. -/
structure Facets.Exact (bs : List Bookmark) (f : Facets) : Prop where
  counts : ∀ k v n, (v, n) ∈ f.counts k ↔ n = k.number bs v ∧ 0 < n
  once : ∀ k, ((f.counts k).map Prod.fst).Nodup
  latest : ∀ d t, (d, t) ∈ f.domainLatest → IsLatest bs d t
  latestKeys : f.domainLatest.map Prod.fst = f.domains.map Prod.fst
  listed : ∀ k, IsListed bs k f

theorem Facets.exact_count (p : Periods) (bs : List Bookmark) : (Facets.count p bs).Exact bs where
  counts k v n := by rw [counts_count, mem_tally, k.count_values]
  once k := by
    rw [counts_count, keys_tally]
    exact nodup_distinct _
  latest := (latestByDomain_spec bs).2
  latestKeys := (latestByDomain_spec bs).1.trans (keys_tally _).symm
  listed := isListed_count p bs

/-- **The facets are exact, sums over the bookmarks, and independent of their order.**  They exist as soon as the
calendar reaches back 180 days; each number is that of the bookmarks with a value, or of its occurrences for topics; the
periods lie one within the other; lists that are put together have the sums of their numbers; and where no platform has
a colon, the list of creators gives back each pair of a platform and a creator once. -/
theorem facets_exact {now : Timestamp} (hnow : 180 * microsPerDay ≤ now.localMicros) :
    ∃ facets : List Bookmark → Facets, ∀ bs, Facets.of now bs = .ok (facets bs) ∧ (facets bs).Exact bs ∧
      (facets bs).dates.Exact now bs ∧ (facets bs).dates.Nested bs.length ∧
      (∀ bs', (∀ k v, (facets (bs ++ bs')).numberOf k v = (facets bs).numberOf k v + (facets bs').numberOf k v) ∧
        (facets (bs ++ bs')).dates = (facets bs).dates + (facets bs').dates) ∧
      (∀ bs', bs.Perm bs' → (∀ k v, (facets bs).numberOf k v = (facets bs').numberOf k v) ∧
        (facets bs).dates = (facets bs').dates) ∧
      ((∀ b ∈ bs, ':' ∉ b.platform.toList) → ∃ pairs, CountsPairs bs pairs ∧
        (facets bs).toJson.get "creators" = .arr (pairs.map creatorEntry)) := by
  obtain ⟨p, hp⟩ := Periods.exists_at_iff.mpr hnow
  have hend := Periods.endAt_of_at hp
  refine ⟨Facets.count p, fun bs => ⟨by rw [Facets.of, hp]; rfl, Facets.exact_count p bs, DateCounts.exact_of hend,
    (DateCounts.exact_of hend).nested, fun bs' => ⟨fun k v => ?_, DateCounts.of_append p bs bs'⟩,
    fun bs' hperm => ⟨fun k v => ?_, DateCounts.of_perm p hperm⟩, exists_countsPairs p⟩⟩
  · simp only [numberOf_count, k.number_append]
  · rw [numberOf_count, numberOf_count, k.number_perm v hperm]

/-- Two bookmarks of one domain, one of them on a platform and added today. -/
theorem facets_exact_sample :
    let now : Timestamp := ⟨⟨2024, 6, 15, by decide⟩, 43200000000, 0, by decide, by decide⟩
    let a : Bookmark := { id := "a", domain := "example.com", creator := "ada", platform := "github", dateAdded := now }
    let b : Bookmark := { id := "b", domain := "example.com", creator := "ada" }
    180 * microsPerDay ≤ now.localMicros ∧ ∃ f, Facets.of now [a, b] = .ok f ∧ ("example.com", 2) ∈ f.domains ∧
      f.dates.week ≤ f.dates.twoWeek ∧ f.dates.year + f.dates.older = 2 ∧
      ∃ pairs : List ((String × String) × Nat), (("github", "ada"), 1) ∈ pairs ∧ (("other", "ada"), 1) ∈ pairs ∧
        f.toJson.get "creators" = .arr (pairs.map creatorEntry) := by
  intro now a b
  have hnow : 180 * microsPerDay ≤ now.localMicros := by decide +kernel
  obtain ⟨facets, hfacets⟩ := facets_exact hnow
  obtain ⟨hof, hexact, _, hnested, _, _, hcreators⟩ := hfacets [a, b]
  obtain ⟨pairs, hpairs, hjson⟩ := hcreators (by decide)
  exact ⟨hnow, facets [a, b], hof, (hexact.counts .domain _ _).mpr (by decide +kernel), hnested.week_le,
    hnested.year_add_older, pairs, (hpairs.mem_iff _ _ _).mpr (by decide +kernel),
    (hpairs.mem_iff _ _ _).mpr (by decide +kernel), hjson⟩

end Search

end Shelfmark
