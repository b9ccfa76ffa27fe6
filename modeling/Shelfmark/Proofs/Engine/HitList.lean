import Shelfmark.Proofs.Engine.Answers
import Shelfmark.Proofs.Search.Facets
import Shelfmark.Proofs.Search.Filtering
import Shelfmark.Proofs.Search.Lookup
import Shelfmark.Proofs.Search.Sorting
import Shelfmark.Proofs.Store.Shelf

/-!
# The list of hits

A search lists hits that are all wanted and sorted stably, each bookmark once (`HitList`), and answers with a page of
them (`Lists`).  The index at hand, whatever it says, can only leave hits out, and where it is of no use none is missing
(`hitList_hitsOf`).

A search answers if the filters can decide about every bookmark of the store and the periods of the facets lie in the
calendar (`search_lists`), and else fails (`search_fails`).
-/

namespace Shelfmark.Engine

open Query Search

variable {α : Type} {w w' : State α} {query : String} {active : Option ActiveFilters} {o : Options}
  {parsed : Option (SpecialFilters × TextQuery)} {text : TextQuery} {access : IndexAccess} {bs : List Bookmark}
  {b : Bookmark}

/-! ## What is asked for -/

/-- The time before which a bookmark that was never opened is stale, if it lies in the calendar. -/
def State.staleLimit (w : State α) : Except Fault Timestamp := w.now.daysBefore w.settings.search.staleDays

/-- The special filters of a query, none if it is blank. -/
def specialOf (parsed : Option (SpecialFilters × TextQuery)) : SpecialFilters := (parsed.map Prod.fst).getD {}

/-- The free text of a query, none if it is blank. -/
def textOf (parsed : Option (SpecialFilters × TextQuery)) : TextQuery := (parsed.map Prod.snd).getD {}

/-- All filters and the free text ask for the bookmark. -/
structure Wanted (w : State α) (active : Option ActiveFilters) (parsed : Option (SpecialFilters × TextQuery))
    (b : Bookmark) : Prop where
  active : ∀ f ∈ active, f.keeps w.staleLimit b = .ok true
  special : (specialOf parsed).keeps w.staleLimit b = .ok true
  text : (textOf parsed).isEmpty = false → (textOf parsed).fits b = true

/-- What the active filters say about a bookmark. -/
def activeKeeps (active : Option ActiveFilters) (limit : Except Fault Timestamp) (b : Bookmark) : Except Fault Bool :=
  match active with
  | some f => f.keeps limit b
  | none => .ok true

/-- The filters come to nothing that nobody knows about a bookmark: the active ones first, and then the special ones
condition by condition. -/
def Decides (w : State α) (active : Option ActiveFilters) (special : SpecialFilters) (b : Bookmark) : Prop :=
  Settled (activeKeeps active w.staleLimit b :: special.conditions w.staleLimit b)

/-- The filters can decide about the bookmarks of the store, and the periods of the facets lie in the calendar. -/
structure Answerable (w : State α) (active : Option ActiveFilters) (o : Options)
    (parsed : Option (SpecialFilters × TextQuery)) : Prop where
  filters : ∀ b ∈ w.store.shelf.bookmarks, Decides w active (specialOf parsed) b
  periods : o.computeStats = true → ∃ p, Periods.at w.now = .ok p

/-! ## What is listed -/

/-- The hit of a bookmark, with its relevance if there is free text. -/
def hitOf (text : TextQuery) (b : Bookmark) : Hit := ⟨b, .int (if text.isEmpty then 0 else relevance b text)⟩

/-- The order of the hits: the one asked for, or else by relevance if there is free text, or else the newest first. -/
def sortKeyOf (o : Options) (text : TextQuery) : SortKey :=
  o.sortBy.getD (if text.isEmpty then .dateDesc else .relevance)

/-- The hits of a search: wanted bookmarks of the store, each of them once, sorted stably from the order of the store;
none is missing unless an index was asked for regular terms. -/
structure HitList (w : State α) (active : Option ActiveFilters) (o : Options)
    (parsed : Option (SpecialFilters × TextQuery)) (hits : List Hit) : Prop where
  distinct : (hits.map (·.bookmark.id)).Nodup
  sound : ∀ h ∈ hits, h.bookmark ∈ w.store.shelf.bookmarks ∧ Wanted w active parsed h.bookmark
  sorted : ∃ kept : List Bookmark, kept.Sublist w.store.shelf.all ∧
    StablySorted (sortKeyOf o (textOf parsed)).le (kept.map (hitOf (textOf parsed))) hits
  complete : ((textOf parsed).isEmpty = true ∨ (textOf parsed).regular = [] ∨ ∀ ix, w.access ≠ .ready ix) →
    ∀ b ∈ w.store.shelf.bookmarks, Wanted w active parsed b → hitOf (textOf parsed) b ∈ hits

/-- The answer is a page of the hits, with facets of all of them if asked for. -/
structure Lists (a : Answer) (o : Options) (now : Timestamp) (parsed : Option (SpecialFilters × TextQuery))
    (hits : List Hit) : Prop where
  page : a.hits = (hits.drop o.offset).take o.limit
  total : a.total = hits.length
  hasMore : a.hasMore = true ↔ hits.drop (o.offset + o.limit) ≠ []
  facets : if o.computeStats = true then ∃ f, Facets.of now (hits.map (·.bookmark)) = .ok f ∧ a.facets = some f
    else a.facets = none
  text : a.text = parsed.map Prod.snd
  special : a.special = parsed.map Prod.fst
  status : a.status ≠ .failed ∧ a.message = none

/-! ## Finding -/

theorem isWhole_hitOf (text : TextQuery) (b : Bookmark) : (hitOf text b).IsWhole := ⟨_, rfl⟩

/-- Where no index is asked none is left out. -/
theorem retrieve_eq_scan {fields : List String} {boost : Boost} (h : text.regular = [] ∨ ∀ ix, access ≠ .ready ix) :
    (retrieve bs text access fields boost).1 = scan bs text := by
  rcases h with h | h
  · rw [retrieve_of_no_regular (by rw [h]; rfl)]
  · unfold retrieve
    split
    · rfl
    · cases access with
      | missing | failing => rfl
      | ready ix => exact absurd rfl (h ix)

/-- The bookmarks found among those that the filters keep. -/
def found (access : IndexAccess) (o : Options) (text : TextQuery) (bs : List Bookmark) : List Bookmark :=
  if text.isEmpty then bs else (retrieve bs text access o.fields o.boost).1

theorem hitsWith_eq : (hitsWith access o text bs).1 =
    sortHits (sortKeyOf o text) ((found access o text bs).map (hitOf text)) := by
  unfold hitsWith sortKeyOf found hitOf
  split
  · rfl
  · rfl

theorem found_sublist : (found access o text bs).Sublist bs := by
  unfold found
  split
  · exact List.Sublist.refl _
  · exact retrieve_sublist_scan.trans List.filter_sublist

theorem fits_of_found (h : text.isEmpty = false) (hb : b ∈ found access o text bs) : text.fits b = true := by
  rw [found, h, if_neg (by simp)] at hb
  exact (List.mem_filter.mp (retrieve_sublist_scan.subset hb)).2

theorem mem_found (h : text.isEmpty = true ∨ text.regular = [] ∨ ∀ ix, access ≠ .ready ix) (hb : b ∈ bs)
    (hfits : text.isEmpty = false → text.fits b = true) : b ∈ found access o text bs := by
  unfold found
  split <;> rename_i he
  · exact hb
  · simp only [Bool.not_eq_true] at he
    rw [retrieve_eq_scan (h.resolve_left (by simp [he]))]
    exact List.mem_filter.mpr ⟨hb, hfits he⟩

/-! ## Filtering -/

theorem activeKeeps_eq_true {limit : Except Fault Timestamp} :
    activeKeeps active limit b = .ok true ↔ ∀ f ∈ active, f.keeps limit b = .ok true := by
  cases active <;> simp [activeKeeps]

/-- The bookmarks that all filters keep. -/
def kept (w : State α) (active : Option ActiveFilters) (special : SpecialFilters) : List Bookmark :=
  w.store.shelf.all.filter fun b => isYes (activeKeeps active w.staleLimit b) && isYes (special.keeps w.staleLimit b)

theorem mem_kept {special : SpecialFilters} : b ∈ kept w active special ↔ b ∈ w.store.shelf.bookmarks ∧
    (∀ f ∈ active, f.keeps w.staleLimit b = .ok true) ∧ special.keeps w.staleLimit b = .ok true := by
  simp only [kept, List.mem_filter, Shelf.mem_all, Bool.and_eq_true, isYes_eq_true, activeKeeps_eq_true]

theorem candidates_active (now : Timestamp) (staleDays : Int) (bs : List Bookmark) :
    candidates active {} now staleDays bs = keepWhere (activeKeeps active (now.daysBefore staleDays)) bs := by
  cases active with
  | some f =>
    show (f.apply now staleDays bs >>= fun bs => _) = _
    exact bind_pure _
  | none =>
    have hyes : ∀ b ∈ bs, Decided (activeKeeps none (now.daysBefore staleDays) b) := fun b _ => decided_ok true
    rw [keepWhere_of_ok hyes]
    exact congrArg Except.ok (List.filter_eq_self.mpr fun _ _ => rfl).symm

theorem candidates_special (special : SpecialFilters) (now : Timestamp) (staleDays : Int) (bs : List Bookmark) :
    candidates none special now staleDays bs = keepWhere (special.keeps (now.daysBefore staleDays)) bs := by
  show (if special.isEmpty then Except.ok bs else special.apply now staleDays bs) = _
  split <;> rename_i h
  · have hkeeps : ∀ b, special.keeps (now.daysBefore staleDays) b = .ok true :=
      fun b => SpecialFilters.keeps_of_isEmpty h
    rw [keepWhere_of_ok fun b _ => ⟨true, hkeeps b⟩]
    exact congrArg Except.ok (List.filter_eq_self.mpr fun b _ => by simp [hkeeps]).symm
  · rfl

/-! ## The hits -/

/-- The hits of a search. -/
def hitsOf (w : State α) (active : Option ActiveFilters) (o : Options) (parsed : Option (SpecialFilters × TextQuery)) :
    List Hit :=
  (hitsWith w.access o (textOf parsed) (kept w active (specialOf parsed))).1

/-- The bookmarks of the hits, in the order of the store. -/
def hitBookmarks (w : State α) (active : Option ActiveFilters) (o : Options)
    (parsed : Option (SpecialFilters × TextQuery)) : List Bookmark :=
  found w.access o (textOf parsed) (kept w active (specialOf parsed))

theorem hitBookmarks_sublist : (hitBookmarks w active o parsed).Sublist w.store.shelf.all :=
  found_sublist.trans List.filter_sublist

/-- **The hits are sorted stably.** -/
theorem stablySorted_hitsOf : StablySorted (sortKeyOf o (textOf parsed)).le
    ((hitBookmarks w active o parsed).map (hitOf (textOf parsed))) (hitsOf w active o parsed) := by
  rw [hitsOf, hitsWith_eq]
  refine stablySorted_sortHits _ fun h hh => ?_
  obtain ⟨b, _, rfl⟩ := List.mem_map.mp hh
  exact isWhole_hitOf _ _

theorem mem_hitsOf {h : Hit} : h ∈ hitsOf w active o parsed ↔
    ∃ b ∈ hitBookmarks w active o parsed, hitOf (textOf parsed) b = h := by
  rw [stablySorted_hitsOf.perm.mem_iff, List.mem_map]

/-- **The hits of a search form a list of hits.** -/
theorem hitList_hitsOf : HitList w active o parsed (hitsOf w active o parsed) where
  distinct := by
    have hsorted : StablySorted (sortKeyOf o (textOf parsed)).le
        ((hitBookmarks w active o parsed).map (hitOf (textOf parsed))) (hitsOf w active o parsed) := stablySorted_hitsOf
    have hids := hsorted.perm.map (·.bookmark.id)
    rw [List.map_map] at hids
    exact hids.nodup_iff.mpr ((Shelf.nodup_all_ids _).sublist (hitBookmarks_sublist.map _))
  sound h hh := by
    obtain ⟨b, hb, rfl⟩ := mem_hitsOf.mp hh
    obtain ⟨hstored, hactive, hspecial⟩ := mem_kept.mp (found_sublist.subset hb)
    exact ⟨hstored, hactive, hspecial, fun ht => fits_of_found ht hb⟩
  sorted := ⟨_, hitBookmarks_sublist, stablySorted_hitsOf⟩
  complete h b hb hwanted := by
    have hkept : b ∈ kept w active (specialOf parsed) := mem_kept.mpr ⟨hb, hwanted.active, hwanted.special⟩
    exact mem_hitsOf.mpr ⟨b, mem_found h hkept hwanted.text, rfl⟩

/-- The hits do not depend on the page. -/
theorem hitsOf_offset (offset : Nat) : hitsOf w active { o with offset } parsed = hitsOf w active o parsed := rfl

theorem staleLimit_congr (h : SameShelf w w') : w'.staleLimit = w.staleLimit := by
  rw [State.staleLimit, State.staleLimit, h.now, h.settings]

theorem hitsOf_congr (h : Agrees w w') : hitsOf w' active o parsed = hitsOf w active o parsed := by
  simp only [hitsOf, kept, h.access, h.shelf, staleLimit_congr h.toSameShelf]

/-! ## Answering -/

theorem Answerable.congr (h : SameShelf w w') (hc : Answerable w active o parsed) : Answerable w' active o parsed := by
  refine ⟨fun b hb => ?_, fun hs => ?_⟩
  · rw [Decides, staleLimit_congr h]
    exact hc.filters b (h.shelf ▸ hb)
  · rw [h.now]
    exact hc.periods hs

/-- The filters decide one after the other. -/
theorem decides_iff {special : SpecialFilters} : Decides w active special b ↔
    Decided (activeKeeps active w.staleLimit b) ∧
      (activeKeeps active w.staleLimit b = .ok true → Decided (special.keeps w.staleLimit b)) := by
  rw [Decides, settled_cons, SpecialFilters.keeps_ok_iff]

/-- **Where the extras and metadata of all bookmarks are objects, and the limit of stale bookmarks and the periods of
the facets lie in the calendar, every search can be answered.** -/
theorem answerable_of_legible (hb : ∀ b ∈ w.store.shelf.bookmarks, b.Legible) (hlimit : ∃ t, w.staleLimit = .ok t)
    (hp : ∃ p, Periods.at w.now = .ok p) : Answerable w active o parsed := by
  refine ⟨fun b hmem => settled_cons.mpr ⟨?_, fun _ => (hb b hmem).settled fun _ => hlimit⟩, fun _ => hp⟩
  cases active with
  | none => exact decided_ok true
  | some f => exact ActiveFilters.keeps_ok_iff.mpr fun _ _ => hlimit

/-- The facets of some hits, if they are asked for. -/
def facetsOf (o : Options) (now : Timestamp) (hits : List Hit) : Except Fault (Option Facets) :=
  if o.computeStats then (Facets.of now (hits.map (·.bookmark))).map some else .ok none

theorem facetsOf_ok_iff {now : Timestamp} {hits : List Hit} :
    (∃ f, facetsOf o now hits = .ok f) ↔ (o.computeStats = true → ∃ p, Periods.at now = .ok p) := by
  unfold facetsOf Facets.of
  cases o.computeStats with
  | false => simp
  | true => cases Periods.at now <;> simp [Except.map]

theorem facetsOf_eq_ok {now : Timestamp} {hits : List Hit} {facets : Option Facets}
    (h : facetsOf o now hits = .ok facets) :
    if o.computeStats = true then ∃ f, Facets.of now (hits.map (·.bookmark)) = .ok f ∧ facets = some f
    else facets = none := by
  unfold facetsOf at h
  split at h <;> rename_i hs
  · obtain ⟨f, hf, hsome⟩ := map_eq_ok.mp h
    rw [if_pos hs]
    exact ⟨f, hf, hsome.symm⟩
  · rw [if_neg hs]
    cases h
    rfl

theorem answerOf_eq (now : Timestamp) (hits : List Hit) (degraded : Bool) : answerOf o now hits degraded parsed =
    (facetsOf o now hits).map fun facets =>
      { hits := o.page hits, total := hits.length, hasMore := o.offset + o.limit < hits.length,
        text := parsed.map Prod.snd, special := parsed.map Prod.fst, facets,
        status := if degraded then .degraded else .ok } := by
  unfold answerOf facetsOf
  cases o.computeStats with
  | true => cases Facets.of now (hits.map (·.bookmark)) <;> rfl
  | false => rfl

/-- A page of hits with their facets lists them. -/
theorem lists_answerOf {now : Timestamp} {hits : List Hit} {degraded : Bool} {a : Answer}
    (h : answerOf o now hits degraded parsed = .ok a) : Lists a o now parsed hits := by
  rw [answerOf_eq] at h
  obtain ⟨facets, hfacets, rfl⟩ := map_eq_ok.mp h
  refine ⟨rfl, rfl, ?_, facetsOf_eq_ok hfacets, rfl, rfl, ?_, rfl⟩
  · simp [List.drop_eq_nil_iff]
  · cases degraded <;> simp

theorem answerOf_ok_iff {now : Timestamp} {hits : List Hit} {degraded : Bool} :
    (∃ a, answerOf o now hits degraded parsed = .ok a) ↔ (o.computeStats = true → ∃ p, Periods.at now = .ok p) := by
  rw [answerOf_eq, ← @facetsOf_ok_iff o now hits]
  cases facetsOf o now hits <;> simp [Except.map]

/-- What a search answers with an index at hand, for what was read in the query. -/
def answerWith (access : IndexAccess) (w : State α) (bs : List Bookmark) (active : Option ActiveFilters) (o : Options)
    (parsed : Option (SpecialFilters × TextQuery)) : Except Fault Answer :=
  (keepWhere (activeKeeps active w.staleLimit) bs >>= keepWhere ((specialOf parsed).keeps w.staleLimit)) >>= fun bs =>
    let r := hitsWith access o (textOf parsed) bs
    answerOf o w.now r.1 r.2 parsed

theorem answerIn_eq (hq : reading w.host query = .ok parsed) :
    answerIn w bs query active o = answerWith w.access w bs active o parsed := by
  rw [answerIn, candidates_active, hq, answerWith, bind_assoc]
  refine bind_congr fun bs => ?_
  show answerRead w bs o parsed = _
  rw [answerRead, candidates_special]
  rfl

/-- Where a search can be answered it is, with a page of the hits that the index at hand leaves. -/
theorem answerWith_of_answerable (hc : Answerable w active o parsed) (access : IndexAccess) : ∃ a,
    answerWith access w w.store.shelf.all active o parsed = .ok a ∧
      answerOf o w.now (hitsWith access o (textOf parsed) (kept w active (specialOf parsed))).1
        (hitsWith access o (textOf parsed) (kept w active (specialOf parsed))).2 parsed = .ok a := by
  have hd : ∀ b ∈ w.store.shelf.all, Decided (activeKeeps active w.staleLimit b) ∧
      (activeKeeps active w.staleLimit b = .ok true → Decided ((specialOf parsed).keeps w.staleLimit b)) :=
    fun b hb => decides_iff.mp (hc.filters b (Shelf.mem_all.mp hb))
  obtain ⟨a, ha⟩ := answerOf_ok_iff.mpr hc.periods
  refine ⟨a, ?_, ha⟩
  rw [answerWith, keepWhere_both (fun b hb => (hd b hb).1) fun b hb => (hd b hb).2]
  exact ha

/-- Where it cannot be answered it fails, whatever index is at hand. -/
theorem answerWith_fails (hc : ¬Answerable w active o parsed) (access : IndexAccess) :
    ∃ e, answerWith access w w.store.shelf.all active o parsed = .error e := by
  rw [answerWith]
  by_cases hs : ∀ b ∈ w.store.shelf.bookmarks, Decides w active (specialOf parsed) b
  · have hp : ¬(o.computeStats = true → ∃ p, Periods.at w.now = .ok p) := fun hp => hc ⟨hs, hp⟩
    cases keepWhere (activeKeeps active w.staleLimit) w.store.shelf.all >>=
      keepWhere ((specialOf parsed).keeps w.staleLimit) with
    | error e => exact ⟨e, rfl⟩
    | ok bs =>
      rw [← answerOf_ok_iff] at hp
      cases ha : answerOf o w.now (hitsWith access o (textOf parsed) bs).1 (hitsWith access o (textOf parsed) bs).2
        parsed with
      | error e => exact ⟨e, ha⟩
      | ok a => exact absurd ⟨a, ha⟩ hp
  · simp only [Classical.not_forall] at hs
    obtain ⟨b, hb, hn⟩ := hs
    obtain ⟨e, he⟩ := keepWhere_both_fails (Shelf.mem_all.mpr hb) (decides_iff.not.mp hn)
    exact ⟨e, by rw [he]; rfl⟩

/-- **A search that can be answered answers with a page of the hits.** -/
theorem search_lists (h : w.Ready .getAll) {options : Option Options} (ho : w.options options = .ok o)
    (hq : reading w.host query = .ok parsed) (hc : Answerable w active o parsed) :
    ∃ a, ((search query active options).run w).1 = .ok a ∧ Lists a o w.now parsed (hitsOf w active o parsed) := by
  obtain ⟨w', _, hrun⟩ := run_search h ho query active
  obtain ⟨a, hanswer, ha⟩ := answerWith_of_answerable hc w.access
  exact ⟨a, by rw [hrun, answerIn_eq hq, hanswer], lists_answerOf ha⟩

/-- **A search that cannot be answered fails.** -/
theorem search_fails (h : w.Ready .getAll) {options : Option Options} (ho : w.options options = .ok o)
    (hq : reading w.host query = .ok parsed) (hc : ¬Answerable w active o parsed) :
    ∃ e, ((search query active options).run w).1 = .error e := by
  obtain ⟨w', _, hrun⟩ := run_search h ho query active
  rw [hrun, answerIn_eq hq]
  exact answerWith_fails hc w.access

end Shelfmark.Engine
