import Shelfmark.Proofs.Engine.Amid
import Shelfmark.Proofs.Engine.HitList

/-!
# Searches amid outages

Whatever goes out of order while a search runs, the search answers what `answerWith` says with one of the indexes that
may be at hand (`search_amid`).  The outages decide how it is answered (`Graded`): it fails if its own look-up of the
bookmarks fails, and is degraded if it looks for regular terms and there is no index that could be asked.  A degraded
answer lists all bookmarks of a scan, and so no fewer than an answer with any index (`search_graded`).
-/

namespace Shelfmark.Engine

open Query Search

variable {α : Type} {w w' : State α} {n : Nat} {fs : Weather} {bs : List Bookmark} {query : String}
  {active : Option ActiveFilters} {o : Options} {options : Option Options}
  {parsed : Option (SpecialFilters × TextQuery)} {text : TextQuery} {access : IndexAccess} {a : Answer}

/-! ## What is answered -/

theorem textHits_amid (ht : text.isEmpty = false) (fs : Weather) (n : Nat) (w : State α) : ∃ access n' w',
    AtHand fs n w access ∧ (textHits bs text o).runAmid fs n w = (.ok (hitsWith access o text bs), n', w') := by
  obtain ⟨access, n', w', hrun, hhand⟩ := indexForSearch_amid fs n w
  by_cases hr : text.regular.isEmpty = true
  · refine ⟨access, n, w, hhand, ?_⟩
    simp only [textHits, hr, if_true, Task.runAmid_bind, Task.runAmid_pure, Task.followAmid_ok, hitsWith, ht,
      Bool.false_eq_true, if_false, retrieve_of_no_regular hr]
  · refine ⟨access, n', w', hhand, ?_⟩
    simp only [textHits, hr, Bool.false_eq_true, if_false, Task.runAmid_bind, hrun, Task.followAmid_ok,
      Task.runAmid_pure, hitsWith, ht]

/-- After the query was read a search answers with the index that is at hand. -/
theorem searchRead_amid (fs : Weather) (n : Nat) (w : State α) (bs : List Bookmark) (o : Options)
    (parsed : Option (SpecialFilters × TextQuery)) : ∃ access n' w', AtHand fs n w access ∧
      (searchRead w.now w.settings.search.staleDays bs o parsed).runAmid fs n w =
        (keepWhere ((specialOf parsed).keeps w.staleLimit) bs >>= fun bs =>
          let r := hitsWith access o (textOf parsed) bs
          answerOf o w.now r.1 r.2 parsed, n', w') := by
  obtain ⟨access, _, _, _, hhand⟩ := indexForSearch_amid fs n w
  simp only [searchRead, Task.runAmid_bind, Task.runAmid_ofExcept, candidates_special]
  change ∃ access n' w', AtHand fs n w access ∧
    Task.followAmid fs (keepWhere ((specialOf parsed).keeps w.staleLimit) bs, n, w) _ = _
  cases keepWhere ((specialOf parsed).keeps w.staleLimit) bs with
  | error e => exact ⟨access, n, w, hhand, rfl⟩
  | ok bs =>
    by_cases ht : (textOf parsed).isEmpty = true
    · refine ⟨access, n, w, hhand, ?_⟩
      have ht' : ((parsed.map Prod.snd).getD {}).isEmpty = true := ht
      simp only [Task.followAmid_ok, ht', if_true, hitsWith, Task.runAmid_bind, Task.runAmid_pure,
        Task.runAmid_ofExcept, ht]
      rfl
    · have ht' : ((parsed.map Prod.snd).getD {}).isEmpty = false := Bool.eq_false_iff.mpr ht
      obtain ⟨access, n', w', hhand, hrun⟩ := @textHits_amid _ bs o _ ht' fs n w
      refine ⟨access, n', w', hhand, ?_⟩
      simp only [Task.followAmid_ok, ht', Bool.false_eq_true, if_false, Task.runAmid_bind, hrun, Task.runAmid_ofExcept]
      rfl

/-- A search among some bookmarks answers with the index that is at hand. -/
theorem searchAmong_amid (fs : Weather) (n : Nat) (w : State α) (hq : reading w.host query = .ok parsed)
    (bs : List Bookmark) (active : Option ActiveFilters) (o : Options) : ∃ access n' w', AtHand fs n w access ∧
      (searchAmong bs query active o).runAmid fs n w = (answerWith access w bs active o parsed, n', w') := by
  obtain ⟨access, _, _, _, hhand⟩ := indexForSearch_amid fs n w
  simp only [searchAmong, Task.runAmid_bind, Task.runAmid_look, Task.followAmid_ok, Task.runAmid_ofExcept,
    candidates_active, answerWith]
  change ∃ access n' w', AtHand fs n w access ∧
    Task.followAmid fs (keepWhere (activeKeeps active w.staleLimit) bs, n, w) _ = _
  cases keepWhere (activeKeeps active w.staleLimit) bs with
  | error e => exact ⟨access, n, w, hhand, rfl⟩
  | ok bs =>
    simp only [Task.followAmid_ok, Task.runAmid_bind, Task.runAmid_look]
    rw [reading] at hq
    split at hq
    · cases hq
      simp only [*, if_true]
      exact searchRead_amid fs n w bs o none
    · obtain ⟨read, hread, rfl⟩ := map_eq_ok.mp hq
      simp only [*, Bool.false_eq_true, if_false]
      exact searchRead_amid fs n w bs o (some read)

/-- **A search whose look-up of the bookmarks succeeds answers with the index that is at hand afterwards, and a search
whose look-up fails answers that it failed.** -/
theorem search_amid (ho : w.options options = .ok o) (hq : reading w.host query = .ok parsed)
    (active : Option ActiveFilters) (fs : Weather) :
    ((w.under (fs 0)).Ready .getAll → ∃ access, AtHand fs 1 (w.under (fs 0)) access ∧
      ((search query active options).runAmid fs 0 w).1 = answerWith access w w.store.shelf.all active o parsed) ∧
    (¬(w.under (fs 0)).Ready .getAll → ∃ message,
      ((search query active options).runAmid fs 0 w).1 = .ok (Answer.failure message)) := by
  have hsearch : (search query active options).runAmid fs 0 w = (searchWith query active o).runAmid fs 0 w := by
    cases options with
    | none =>
      have husual : usualOptions w.settings = .ok o := ho
      have hstart : (search query active none).runAmid fs 0 w =
          (Task.ofExcept (usualOptions w.settings) >>= fun o => searchWith query active o).runAmid fs 0 w := rfl
      rw [hstart, husual]
      rfl
    | some o' =>
      cases ho
      rfl
  refine ⟨fun h => ?_, fun h => ?_⟩
  · obtain ⟨access, n', w', hhand, hrun⟩ := searchAmong_amid fs 1 (w.under (fs 0)) hq w.store.shelf.all active o
    refine ⟨access, hhand, ?_⟩
    rw [hsearch]
    simp only [searchWith, Task.runAmid_bind, Task.runAmid_attempt, runAmid_allBookmarks h, Task.followAmid_ok, hrun]
    rfl
  · obtain ⟨e, _, hrun⟩ := runAmid_store_not_ready h
    refine ⟨e.message, ?_⟩
    rw [hsearch]
    simp only [searchWith, Task.runAmid_bind, Task.runAmid_attempt, allBookmarks, hrun, Task.followAmid_ok,
      Task.runAmid_pure]

/-! ## How it is answered -/

/-- The search of the index for regular terms fails: it is out of order, or it has to add a weight beyond the
doubles. -/
def SearchFails (w : State α) (o : Options) (text : TextQuery) : Prop :=
  w.IsBroken ∨ ∃ e, w.nextIndex.search text.regular o.fields o.boost = .error e

/-- The index cannot answer for regular terms: there is none, or it is asked and its search fails. -/
def LetsDown (fs : Weather) (n : Nat) (w : State α) (o : Options) (text : TextQuery) : Prop :=
  text.regular ≠ [] ∧
    (¬LoadableFrom fs n w ∨ text.regular.all Index.isSearchable = true ∧ SearchFails w o text)

theorem retrieve_degraded_iff (h : AtHand fs n w access) :
    (retrieve bs text access o.fields o.boost).2 = true ↔ LetsDown fs n w o text := by
  unfold LetsDown SearchFails retrieve
  cases hr : text.regular with
  | nil => simp
  | cons t ts =>
    cases h with
    | ready hl hb =>
      simp only [List.isEmpty_cons, Bool.false_eq_true, if_false]
      split
      · split <;> simp [*]
      · simp [*]
    | broken hl hb => simp [hl, hb]
    | missing hl => simp [hl]

/-- The hits of a scan of all bookmarks that the filters keep. -/
def scanHits (w : State α) (active : Option ActiveFilters) (o : Options)
    (parsed : Option (SpecialFilters × TextQuery)) : List Hit :=
  sortHits (sortKeyOf o (textOf parsed))
    ((scan (kept w active (specialOf parsed)) (textOf parsed)).map (hitOf (textOf parsed)))

/-- An answer whose status says how it came about: it failed exactly if the look-up of the bookmarks did, and lists
nothing then, and it is degraded exactly if the index let the search down, and lists the hits of a scan then. -/
structure Graded (fs : Weather) (w : State α) (active : Option ActiveFilters) (o : Options)
    (parsed : Option (SpecialFilters × TextQuery)) (a : Answer) : Prop where
  failed_iff : a.status = .failed ↔ ¬(w.under (fs 0)).Ready .getAll
  failed : a.status = .failed → a.hits = [] ∧ a.total = 0
  degraded_iff : a.status = .degraded ↔
    (w.under (fs 0)).Ready .getAll ∧ LetsDown fs 1 (w.under (fs 0)) o (textOf parsed)
  degraded : a.status = .degraded → Lists a o w.now parsed (scanHits w active o parsed)

theorem status_answerOf {now : Timestamp} {hits : List Hit} {degraded : Bool}
    (h : answerOf o now hits degraded parsed = .ok a) : a.status = if degraded then .degraded else .ok := by
  rw [answerOf_eq] at h
  obtain ⟨facets, _, rfl⟩ := map_eq_ok.mp h
  rfl

theorem isEmpty_eq_false_of_regular (h : text.regular ≠ []) : text.isEmpty = false := by
  cases hr : text.regular with
  | nil => exact absurd hr h
  | cons t ts => simp [TextQuery.isEmpty, hr]

/-- Where the index lets a search down, it lists the hits of a scan. -/
theorem hitsWith_of_letsDown (h : AtHand fs n w access) (hd : LetsDown fs n w o text) :
    (hitsWith access o text bs).1 = sortHits (sortKeyOf o text) ((scan bs text).map (hitOf text)) := by
  have hfound : found access o text bs = scan bs text := by
    rw [found, if_neg (by simp [isEmpty_eq_false_of_regular hd.1])]
    cases h with
    | missing | broken => exact retrieve_eq_scan (.inr fun _ hready => by cases hready)
    | ready hl hb =>
      obtain ⟨hs, hfails⟩ := hd.2.resolve_left (not_not.mpr hl)
      obtain ⟨e, he⟩ := hfails.resolve_left hb
      simp [retrieve, hd.1, hs, he]
  rw [hitsWith_eq, hfound]

theorem hitsWith_degraded_iff (h : AtHand fs n w access) (o : Options) (bs : List Bookmark) :
    (hitsWith access o text bs).2 = true ↔ LetsDown fs n w o text := by
  unfold hitsWith
  split
  · rename_i he
    refine iff_of_false (by simp) fun hd => ?_
    rw [isEmpty_eq_false_of_regular hd.1] at he
    cases he
  · exact retrieve_degraded_iff h

theorem graded_failure (h : ¬(w.under (fs 0)).Ready .getAll) (message : String) :
    Graded fs w active o parsed (Answer.failure message) where
  failed_iff := iff_of_true rfl h
  failed _ := ⟨rfl, rfl⟩
  degraded_iff := iff_of_false (by simp [Answer.failure]) fun hd => h hd.1
  degraded hs := by cases hs

theorem graded_answerOf (h : (w.under (fs 0)).Ready .getAll) (hhand : AtHand fs 1 (w.under (fs 0)) access)
    (ha : answerOf o w.now (hitsWith access o (textOf parsed) (kept w active (specialOf parsed))).1
      (hitsWith access o (textOf parsed) (kept w active (specialOf parsed))).2 parsed = .ok a) :
    Graded fs w active o parsed a := by
  have hstatus := status_answerOf ha
  have hdegraded : a.status = .degraded ↔ LetsDown fs 1 (w.under (fs 0)) o (textOf parsed) := by
    rw [hstatus, ← hitsWith_degraded_iff hhand o (kept w active (specialOf parsed))]
    split <;> simp [*]
  have hnotFailed : a.status ≠ .failed := by
    rw [hstatus]
    split <;> simp
  refine ⟨iff_of_false hnotFailed (not_not.mpr h), fun hf => absurd hf hnotFailed, ?_, fun hd => ?_⟩
  · rw [hdegraded, and_iff_right h]
  · have hlists := lists_answerOf ha
    rwa [hitsWith_of_letsDown hhand (hdegraded.mp hd)] at hlists

/-! ## What a scan does not miss -/

theorem found_sublist_scan (h : text.isEmpty = false) : (found access o text bs).Sublist (scan bs text) := by
  rw [found, if_neg (by simp [h])]
  exact retrieve_sublist_scan

/-- Whatever index is at hand, its hits are hits of a scan. -/
theorem hitsWith_subset_scan (h : text.isEmpty = false) (access : IndexAccess) (o : Options) (bs : List Bookmark) :
    let hits := (hitsWith access o text bs).1
    let scanned := sortHits (sortKeyOf o text) ((scan bs text).map (hitOf text))
    (∀ x ∈ hits, x ∈ scanned) ∧ hits.length ≤ scanned.length := by
  intro hits scanned
  have hfound : (found access o text bs).Sublist (scan bs text) := found_sublist_scan h
  have hhits : hits = sortHits (sortKeyOf o text) ((found access o text bs).map (hitOf text)) := hitsWith_eq
  refine ⟨fun x hx => ?_, ?_⟩
  · rw [hhits] at hx
    exact List.mem_mergeSort.mpr ((hfound.map _).subset (List.mem_mergeSort.mp hx))
  · rw [hhits]
    simp only [scanned, sortHits, List.length_mergeSort, List.length_map]
    exact hfound.length_le

theorem kept_congr (hshelf : w'.store.shelf = w.store.shelf) (hnow : w'.now = w.now)
    (hsettings : w'.settings = w.settings) (special : SpecialFilters) :
    kept w' active special = kept w active special := by
  simp only [kept, State.staleLimit, hshelf, hnow, hsettings]

/-- An answer that is as it should be, amid whatever outages and with whatever index, lists hits of a scan. -/
theorem listed_of_ok (ho : w'.options options = .ok o) (hq : reading w'.host query = .ok parsed)
    (ht : (textOf parsed).isEmpty = false) {fs : Weather}
    (hrun : ((search query active options).runAmid fs 0 w').1 = .ok a) (hs : a.status = .ok) :
    ∃ hits, Lists a o w'.now parsed hits ∧ (∀ x ∈ hits, x ∈ scanHits w' active o parsed) ∧
      a.total ≤ (scanHits w' active o parsed).length := by
  obtain ⟨hready, hfailed⟩ := search_amid ho hq active fs
  by_cases h : (w'.under (fs 0)).Ready .getAll
  · obtain ⟨access, _, hanswer⟩ := hready h
    rw [hrun] at hanswer
    have hc : Answerable w' active o parsed := by
      by_contra hc
      obtain ⟨e, he⟩ := answerWith_fails hc access
      rw [he] at hanswer
      cases hanswer
    obtain ⟨a', ha', hpage⟩ := answerWith_of_answerable hc access
    cases hanswer.trans ha'
    obtain ⟨hsubset, hlength⟩ := hitsWith_subset_scan ht access o (kept w' active (specialOf parsed))
    have hlists := lists_answerOf hpage
    exact ⟨_, hlists, hsubset, hlists.total ▸ hlength⟩
  · obtain ⟨message, hanswer⟩ := hfailed h
    cases hrun.symm.trans hanswer
    cases hs

/-- **How a search is answered amid outages.**  It answers exactly if it cannot look the bookmarks up or its filters can
decide about all of them and the periods of the facets lie in the calendar.  The status of an answer says how it came
about.  A degraded answer lists no fewer hits than an answer for the same bookmarks with any index, amid any other
outages. -/
theorem search_graded (ho : w.options options = .ok o) (hq : reading w.host query = .ok parsed) (fs : Weather) :
    ((∃ a, ((search query active options).runAmid fs 0 w).1 = .ok a) ↔
      ((w.under (fs 0)).Ready .getAll → Answerable w active o parsed)) ∧
    ∀ a, ((search query active options).runAmid fs 0 w).1 = .ok a → Graded fs w active o parsed a ∧
      (a.status = .degraded → ∀ (w' : State α) (fs' : Weather) (a' : Answer), w'.host = w.host →
        w'.store.shelf = w.store.shelf → w'.now = w.now → w'.settings = w.settings →
        ((search query active (some o)).runAmid fs' 0 w').1 = .ok a' → a'.status = .ok →
          ∃ hits, Lists a' o w.now parsed hits ∧ (∀ x ∈ hits, x ∈ scanHits w active o parsed) ∧
            a'.total ≤ a.total) := by
  obtain ⟨hready, hfailed⟩ := search_amid ho hq active fs
  by_cases h : (w.under (fs 0)).Ready .getAll
  · obtain ⟨access, hhand, hanswer⟩ := hready h
    by_cases hc : Answerable w active o parsed
    · obtain ⟨a, ha, hpage⟩ := answerWith_of_answerable hc access
      have hgraded : Graded fs w active o parsed a := graded_answerOf h hhand hpage
      refine ⟨iff_of_true ⟨a, hanswer.trans ha⟩ fun _ => hc, fun b hb => ?_⟩
      cases hb.symm.trans (hanswer.trans ha)
      refine ⟨hgraded, fun hd w' fs' a' hhost hshelf hnow hsettings hrun hs => ?_⟩
      have ht := isEmpty_eq_false_of_regular (hgraded.degraded_iff.mp hd).2.1
      have hscan : scanHits w' active o parsed = scanHits w active o parsed := by
        rw [scanHits, kept_congr hshelf hnow hsettings, scanHits]
      obtain ⟨hits, hlists, hsubset, htotal⟩ := listed_of_ok rfl (hhost ▸ hq) ht hrun hs
      rw [hscan] at hsubset htotal
      rw [← (hgraded.degraded hd).total] at htotal
      exact ⟨hits, hnow ▸ hlists, hsubset, htotal⟩
    · obtain ⟨e, he⟩ := answerWith_fails hc access
      have hnone : ∀ a, ((search query active options).runAmid fs 0 w).1 ≠ .ok a := fun a ha => by
        rw [hanswer, he] at ha
        cases ha
      exact ⟨iff_of_false (fun ⟨a, ha⟩ => hnone a ha) fun hin => hc (hin h), fun a ha => absurd ha (hnone a)⟩
  · obtain ⟨message, hanswer⟩ := hfailed h
    refine ⟨iff_of_true ⟨_, hanswer⟩ fun hin => absurd hin h, fun a ha => ?_⟩
    cases ha.symm.trans hanswer
    exact ⟨graded_failure h message, fun hd => by cases hd⟩

/-- The cache goes out of order behind the look-up of the bookmarks: the only bookmark is found without an index. -/
theorem search_graded_sample :
    let b : Bookmark := { id := "a", title := "Lean" }
    let w : State Unit := { store := { shelf := ({} : Shelf).put b } }
    let o : Options := { limit := 1 }
    let parsed : Option (SpecialFilters × TextQuery) := some ({}, { regular := ["lean"] })
    let fs : Weather := fun n => if n = 1 then some [(.getCache, "db down")] else none
    w.options (some o) = .ok o ∧ reading w.host "lean" = .ok parsed ∧ (w.under (fs 0)).Ready .getAll ∧
      ∃ a, ((search "lean" none (some o)).runAmid fs 0 w).1 = .ok a ∧ a.status = .degraded ∧ a.total = 1 := by
  intro b w o parsed fs
  have ho : w.options (some o) = .ok o := rfl
  have hq : reading w.host "lean" = .ok parsed := by rfl
  have hready : (w.under (fs 0)).Ready .getAll := ⟨rfl, rfl⟩
  have hlegible : ∀ d ∈ w.store.shelf.bookmarks, d.Legible := fun d hd => by
    obtain rfl : d = b := List.mem_singleton.mp hd
    exact Bookmark.legible_of_nil rfl rfl
  have hlimit : ∃ t, w.staleLimit = .ok t := (Timestamp.exists_daysBefore_iff (by decide)).mpr (by decide)
  have hc : Answerable w none o parsed :=
    answerable_of_legible hlegible hlimit (Periods.exists_at_iff.mpr (by decide))
  have hmissing : ¬LoadableFrom fs 1 (w.under (fs 0)) := by
    rintro (hcurrent | ⟨hcache, _⟩)
    · exact hcurrent rfl
    · exact absurd hcache.1 (by simp [fs, State.under, State.faultOf])
  obtain ⟨hanswers, hgraded⟩ := search_graded ho hq fs
  obtain ⟨a, ha⟩ := hanswers.mpr fun _ => hc
  have hdegraded : a.status = .degraded := (hgraded a ha).1.degraded_iff.mpr ⟨hready, by decide, .inl hmissing⟩
  have hall : w.store.shelf.all = [b] := Shelf.all_of_pairwise (List.pairwise_singleton _ b)
  have htotal : (scanHits w none o parsed).length = 1 := by
    rw [scanHits, sortHits, List.length_mergeSort, List.length_map, kept, hall]
    decide +kernel
  exact ⟨ho, hq, hready, a, ha, hdegraded, ((hgraded a ha).1.degraded hdegraded).total.trans htotal⟩

/-- A search that cannot be answered, whatever its options are, gives no answer amid any outages in which the bookmarks
can be looked up. -/
theorem search_amid_ne_ok (ho : ∃ o, w.options options = .ok o) (hq : reading w.host query = .ok parsed)
    (hc : ∀ o, ¬Answerable w active o parsed) (hready : (w.under (fs 0)).Ready .getAll) (a : Answer) :
    ((search query active options).runAmid fs 0 w).1 ≠ .ok a := by
  intro ha
  obtain ⟨o, ho⟩ := ho
  obtain ⟨access, _, hanswer⟩ := (search_amid ho hq active fs).1 hready
  obtain ⟨e, he⟩ := answerWith_fails (hc o) access
  rw [ha, he] at hanswer
  cases hanswer

/-- A limit of stale bookmarks that lies before the calendar fails a search for a word, with the cache out of order as
without; and so do extras that are no object where a picture is asked for. -/
theorem search_amid_unanswered :
    let b : Bookmark := { id := "a", title := "Lean" }
    let active : ActiveFilters := { stale := true }
    let w : State Unit :=
      { store := { shelf := ({} : Shelf).put b }, settings := { search := { staleDays := 800000 } } }
    let c : Bookmark := { id := "a", title := "Lean", platformData := [("extra", .str "x")] }
    let v : State Unit := { store := { shelf := ({} : Shelf).put c } }
    let fs : Weather := fun _ => some [(.getCache, "db down")]
    ((w.under (fs 0)).Ready .getAll ∧ (∃ o, w.options none = .ok o) ∧ (∃ parsed, reading w.host "lean" = .ok parsed) ∧
      ∀ a, ((search "lean" (some active) none).runAmid fs 0 w).1 ≠ .ok a) ∧
    (v.under (fs 0)).Ready .getAll ∧ (∃ o, v.options none = .ok o) ∧
      (∃ parsed, reading v.host "hasimage:yes" = .ok parsed) ∧
      ∀ a, ((search "hasimage:yes" none none).runAmid fs 0 v).1 ≠ .ok a := by
  intro b active w c v fs
  have hword : reading w.host "lean" = .ok (some ({}, { regular := ["lean"] })) := by rfl
  have hpicture : reading v.host "hasimage:yes" = .ok (some ({ hasImage := some true }, {})) := by rfl
  have hbefore : (Timestamp.epoch.daysBefore 800000).toOption = none := by decide +kernel
  obtain ⟨e, hlimit⟩ : ∃ e, w.staleLimit = .error e := toOption_eq_none.mp hbefore
  have hlate : ∀ o, ¬Answerable w (some active) o (some ({}, { regular := ["lean"] })) := fun o hc => by
    obtain ⟨hactive, _⟩ := settled_cons.mp (hc.filters b (Shelf.mem_put_self _ b))
    obtain ⟨t, ht⟩ := ActiveFilters.keeps_ok_iff.mp hactive rfl rfl
    rw [hlimit] at ht
    cases ht
  have hodd : ∀ o, ¬Answerable v none o (some ({ hasImage := some true }, {})) := fun o hc => by
    obtain ⟨_, hkeeps⟩ := decides_iff.mp (hc.filters c (Shelf.mem_put_self _ c))
    obtain ⟨k, hk⟩ := hkeeps rfl
    cases hk
  exact ⟨⟨⟨rfl, rfl⟩, ⟨_, rfl⟩, ⟨_, hword⟩, search_amid_ne_ok ⟨_, rfl⟩ hword hlate ⟨rfl, rfl⟩⟩,
    ⟨rfl, rfl⟩, ⟨_, rfl⟩, ⟨_, hpicture⟩, search_amid_ne_ok ⟨_, rfl⟩ hpicture hodd ⟨rfl, rfl⟩⟩

end Shelfmark.Engine
