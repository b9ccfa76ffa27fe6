import Shelfmark.Proofs.Engine.HitList

/-!
# Pages

A reader asks for one page after the other while there are more, and other searches may come in between (`Walk`).  The
pages are the list of hits cut in pieces: no hit is skipped and none comes twice (`exists_walk`, `Walk.hits_eq`),
although the first search may load the index and the others find it in memory.

All of what a search answers is put together in `search_pages`.
-/

namespace Shelfmark.Engine

open Query Search

variable {α : Type}

/-! ## Reading on -/

/-- Any number of searches. -/
inductive Searched (w : State α) : State α → Prop
  | none : Searched w w
  | more {w' : State α} (query : String) (active : Option ActiveFilters) (options : Option Options)
      (h : Searched w w') : Searched w ((search query active options).run w').2

/-- The hits on the pages from an offset on: a page is the last one, or there are more. -/
inductive Walk (query : String) (active : Option ActiveFilters) (o : Options) : State α → Nat → List Hit → Prop
  | last {w w' : State α} {offset : Nat} {a : Answer}
      (hrun : (search query active (some { o with offset })).run w = (.ok a, w')) (hmore : a.hasMore = false) :
      Walk query active o w offset a.hits
  | next {w w' w'' : State α} {offset : Nat} {a : Answer} {hits : List Hit}
      (hrun : (search query active (some { o with offset })).run w = (.ok a, w')) (hmore : a.hasMore = true)
      (hsearched : Searched w' w'') (hrest : Walk query active o w'' (offset + o.limit) hits) :
      Walk query active o w offset (a.hits ++ hits)

variable {w v : State α} {query : String} {active : Option ActiveFilters} {o : Options} {options : Option Options}
  {parsed : Option (SpecialFilters × TextQuery)} {offset : Nat} {hits : List Hit}

theorem Searched.agrees (h : Searched w v) : Agrees w v := by
  induction h with
  | none => exact .refl w
  | more query active options _ ih => exact ih.trans (agrees_search _ query active options)

namespace Lists

variable {a : Answer} {now : Timestamp}

/-- A page and what comes behind it. -/
theorem append (h : Lists a o now parsed hits) : a.hits ++ hits.drop (o.offset + o.limit) = hits.drop o.offset := by
  rw [h.page, ← List.drop_drop, List.take_append_drop]

/-- Nothing comes behind the last page. -/
theorem of_last (h : Lists a o now parsed hits) (hmore : a.hasMore = false) : a.hits = hits.drop o.offset := by
  have hlast : hits.drop (o.offset + o.limit) = [] := by
    by_contra hne
    rw [h.hasMore.mpr hne] at hmore
    cases hmore
  rw [← h.append, hlast, List.append_nil]

end Lists

section Pages

variable (h : w.Ready .getAll) (hq : reading w.host query = .ok parsed) (hc : Answerable w active o parsed)
include h hq hc

/-- **Every page is a page of one list of hits**, whatever was searched for before. -/
theorem search_page (hv : Agrees w v) (offset : Nat) : ∃ a v',
    (search query active (some { o with offset })).run v = (.ok a, v') ∧ Agrees w v' ∧
      Lists a { o with offset } w.now parsed (hitsOf w active o parsed) := by
  have hready : v.Ready .getAll := hv.ready.mpr h
  have hcv : Answerable v active { o with offset } parsed := by
    obtain ⟨hfilters, hperiods⟩ := hc.congr hv.toSameShelf
    exact ⟨hfilters, hperiods⟩
  have ho : v.options (some { o with offset }) = .ok { o with offset } := rfl
  obtain ⟨a, ha, hlists⟩ := search_lists hready ho (hv.host ▸ hq) hcv
  rw [hitsOf_offset, hitsOf_congr hv, hv.now] at hlists
  exact ⟨a, _, Prod.ext ha rfl, hv.trans (agrees_search v query active _), hlists⟩

/-- **No hit is skipped and none comes twice.** -/
theorem Walk.hits_eq (hv : Agrees w v) (hwalk : Walk query active o v offset hits) :
    hits = (hitsOf w active o parsed).drop offset := by
  induction hwalk with
  | last hrun hmore =>
    obtain ⟨a, v', ha, _, hlists⟩ := search_page h hq hc hv _
    cases hrun.symm.trans ha
    exact hlists.of_last hmore
  | next hrun hmore hsearched hrest ih =>
    obtain ⟨a, v', ha, hv', hlists⟩ := search_page h hq hc hv _
    cases hrun.symm.trans ha
    rw [ih (hv'.trans hsearched.agrees)]
    exact hlists.append

/-- The pages come to an end. -/
theorem exists_walk (hv : Agrees w v) (offset : Nat) :
    Walk query active o v offset ((hitsOf w active o parsed).drop offset) := by
  -- every page takes the offset nearer to the end of the hits
  induction hn : (hitsOf w active o parsed).length - offset using Nat.strong_induction_on generalizing v offset with
  | _ n ih =>
    obtain ⟨a, v', ha, hv', hlists⟩ := search_page h hq hc hv offset
    cases hmore : a.hasMore with
    | false =>
      have hlast : a.hits = (hitsOf w active o parsed).drop offset := hlists.of_last hmore
      rw [← hlast]
      exact .last ha hmore
    | true =>
      have hlt : offset + o.limit < (hitsOf w active o parsed).length := by
        simpa [List.drop_eq_nil_iff] using hlists.hasMore.mp hmore
      have hpos : 0 < o.limit := o.limit_pos
      have hpage : a.hits ++ (hitsOf w active o parsed).drop (offset + o.limit) =
          (hitsOf w active o parsed).drop offset := hlists.append
      rw [← hpage]
      exact .next ha hmore .none (ih _ (by omega) hv' (offset + o.limit) rfl)

end Pages

/-- **What a search answers.**  If it can be answered there is a list of hits such that the answer is a page of it, and
reading page after page gives all of it.  Else it fails: a filter comes to something that nobody knows about a bookmark,
or the periods of the facets lie outside the calendar. -/
theorem search_pages (h : w.Ready .getAll) (ho : w.options options = .ok o) (hq : reading w.host query = .ok parsed) :
    (Answerable w active o parsed → ∃ hits, HitList w active o parsed hits ∧
      (∃ a, ((search query active options).run w).1 = .ok a ∧ Lists a o w.now parsed hits) ∧
      ∀ read, Walk query active o w 0 read ↔ read = hits) ∧
    (¬Answerable w active o parsed → ∃ e, ((search query active options).run w).1 = .error e) := by
  refine ⟨fun hc => ?_, search_fails h ho hq⟩
  refine ⟨hitsOf w active o parsed, hitList_hitsOf, search_lists h ho hq hc, fun read => ⟨fun hwalk => ?_, ?_⟩⟩
  · exact hwalk.hits_eq h hq hc (.refl w)
  · rintro rfl
    exact exists_walk h hq hc (.refl w) 0

/-- Of two bookmarks one was opened; reading page after page of those that were not gives the other. -/
theorem search_pages_sample :
    let b : Bookmark := { id := "a", accessCount := 1 }
    let c : Bookmark := { id := "b" }
    let w : State Unit := { store := { shelf := (({} : Shelf).put b).put c } }
    let o : Options := { limit := 1 }
    let parsed : Option (SpecialFilters × TextQuery) := some ({ accessed := some false }, {})
    w.Ready .getAll ∧ w.options (some o) = .ok o ∧ reading w.host "accessed:no" = .ok parsed ∧
      Answerable w none o parsed ∧
      ∃ read, Walk "accessed:no" none o w 0 read ∧ hitOf {} c ∈ read ∧ ∀ h ∈ read, h.bookmark = c := by
  intro b c w o parsed
  have hready : w.Ready .getAll := ⟨rfl, rfl⟩
  have hq : reading w.host "accessed:no" = .ok parsed := by rfl
  have hlegible : ∀ d ∈ w.store.shelf.bookmarks, d.Legible := by
    intro d hd
    rcases List.mem_pair.mp hd with rfl | rfl <;> exact Bookmark.legible_of_nil rfl rfl
  have hlimit : ∃ t, w.staleLimit = .ok t := (Timestamp.exists_daysBefore_iff (by decide)).mpr (by decide)
  have hc : Answerable w none o parsed :=
    answerable_of_legible hlegible hlimit (Periods.exists_at_iff.mpr (by decide))
  have hshelf : w.store.shelf.bookmarks = [b, c] := by rfl
  have hopened : (specialOf parsed).keeps w.staleLimit b = .ok false := by rfl
  have ho : w.options (some o) = .ok o := rfl
  obtain ⟨read, hhits, _, hwalk⟩ := (search_pages hready ho hq).1 hc
  refine ⟨hready, ho, hq, hc, read, (hwalk read).mpr rfl, ?_, fun h hh => ?_⟩
  · exact hhits.complete (Or.inl rfl) c (Shelf.mem_put_self _ c) ⟨by simp, rfl, fun h => by cases h⟩
  · obtain ⟨hb, hwanted⟩ := hhits.sound h hh
    rw [hshelf] at hb
    rcases List.mem_pair.mp hb with hb | hb
    · have hyes := hwanted.special
      rw [hb, hopened] at hyes
      cases hyes
    · exact hb

/-- A search that cannot be answered, whatever its options are, gives no answer. -/
theorem search_ne_ok (h : w.Ready .getAll) (ho : ∃ o, w.options options = .ok o)
    (hq : reading w.host query = .ok parsed) (hc : ∀ o, ¬Answerable w active o parsed) (a : Answer) :
    ((search query active options).run w).1 ≠ .ok a := by
  intro ha
  obtain ⟨o, ho⟩ := ho
  obtain ⟨e, he⟩ := search_fails h ho hq (hc o)
  rw [ha] at he
  cases he

/-- A limit of stale bookmarks that lies before the calendar fails a search that is in order otherwise, and so do extras
that are no object where a picture is asked for. -/
theorem search_unanswered :
    let b : Bookmark := { id := "a" }
    let w : State Unit :=
      { store := { shelf := ({} : Shelf).put b }, settings := { search := { staleDays := 800000 } } }
    let c : Bookmark := { id := "a", platformData := [("extra", .str "x")] }
    let v : State Unit := { store := { shelf := ({} : Shelf).put c } }
    (w.Ready .getAll ∧ (∃ o, w.options none = .ok o) ∧ (∃ parsed, reading w.host "stale:yes" = .ok parsed) ∧
      ∀ a, ((search "stale:yes" none none).run w).1 ≠ .ok a) ∧
    v.Ready .getAll ∧ (∃ o, v.options none = .ok o) ∧ (∃ parsed, reading v.host "hasimage:yes" = .ok parsed) ∧
      ∀ a, ((search "hasimage:yes" none none).run v).1 ≠ .ok a := by
  intro b w c v
  have hstale : reading w.host "stale:yes" = .ok (some ({ stale := some true }, {})) := by rfl
  have hpicture : reading v.host "hasimage:yes" = .ok (some ({ hasImage := some true }, {})) := by rfl
  have hbefore : (Timestamp.epoch.daysBefore 800000).toOption = none := by decide +kernel
  have hlimit : ∃ e, w.staleLimit = .error e := toOption_eq_none.mp hbefore
  have hlate : ∀ o, ¬Answerable w none o (some ({ stale := some true }, {})) := fun o hc => by
    obtain ⟨_, hkeeps⟩ := decides_iff.mp (hc.filters b (Shelf.mem_put_self _ b))
    obtain ⟨k, hk⟩ := hkeeps rfl
    obtain ⟨e, he⟩ := hlimit
    rw [SpecialFilters.keeps, SpecialFilters.conditions, he] at hk
    cases hk
  have hodd : ∀ o, ¬Answerable v none o (some ({ hasImage := some true }, {})) := fun o hc => by
    obtain ⟨_, hkeeps⟩ := decides_iff.mp (hc.filters c (Shelf.mem_put_self _ c))
    obtain ⟨k, hk⟩ := hkeeps rfl
    cases hk
  exact ⟨⟨⟨rfl, rfl⟩, ⟨_, rfl⟩, ⟨_, hstale⟩, search_ne_ok ⟨rfl, rfl⟩ ⟨_, rfl⟩ hstale hlate⟩,
    ⟨rfl, rfl⟩, ⟨_, rfl⟩, ⟨_, hpicture⟩, search_ne_ok ⟨rfl, rfl⟩ ⟨_, rfl⟩ hpicture hodd⟩

end Shelfmark.Engine
