import Shelfmark.Proofs.Engine.Lookups
import Shelfmark.Proofs.Similarity.Candidates
import Shelfmark.Proofs.Similarity.Records

/-!
# Records from the store and from a list

A bookmark is compared with the same candidates whether these are looked up in the store, domain by domain and category
by category with limits, or drawn from the list of all bookmarks, where the times of all bookmarks have one offset
(`run_targetAndCandidates`, `run_targetAndCandidates_of_list`), as long as the limits are numbers that the store knows
(`CapsFit`).  So the records and what is stored are the same either way (`computeSimilar_of_list`).
-/

namespace Shelfmark.Engine

open Similarity

variable {α : Type} {w : State α} {offset : Int}

/-! ## Look-ups of a part -/

theorem run_bookmarksOfDomain (h : w.Ready .getByDomain) (domain : String) (limit : Option Int) :
    (bookmarksOfDomain domain limit).run w = (w.store.shelf.ofDomain domain limit, w) := by
  rw [bookmarksOfDomain, run_store h]
  cases w.store.shelf.ofDomain domain limit with
  | error e => rfl
  | ok bs => exact congrArg (·, w) (mapM_reread bs)

theorem run_bookmarksOfCategory (h : w.Ready .getByCategory) (category : String) (limit : Option Int) :
    (bookmarksOfCategory category limit).run w = (w.store.shelf.ofCategory category limit, w) := by
  rw [bookmarksOfCategory, run_store h]
  cases w.store.shelf.ofCategory category limit with
  | error e => rfl
  | ok bs => exact congrArg (·, w) (mapM_reread bs)

/-- All times on the shelf have one offset. -/
def OneOffset (s : Shelf) (offset : Int) : Prop := ∀ b ∈ s.bookmarks, b.dateAdded.offset = offset

instance (s : Shelf) (offset : Int) : Decidable (OneOffset s offset) :=
  inferInstanceAs (Decidable (∀ b ∈ s.bookmarks, b.dateAdded.offset = offset))

/-- The look-ups of bookmarks are in order. -/
structure Findable (w : State α) : Prop where
  one : w.Ready .getOne
  all : w.Ready .getAll
  domain : w.Ready .getByDomain
  category : w.Ready .getByCategory

/-- The caps by which a bookmark's candidates are looked up are numbers that the store knows, with one more. -/
structure CapsFit (caps : Caps) (target : Bookmark) : Prop where
  domain : target.domain.isEmpty = false → Number.fitsWord (caps.domain + 1) = true
  category : target.category.isEmpty = false → Number.fitsWord (caps.category + 1) = true

/-- The caps that are set at first fit every bookmark. -/
theorem capsFit_default (target : Bookmark) : CapsFit {} target :=
  ⟨fun _ => by decide, fun _ => by decide⟩

/-- The caps fit the bookmark with an id, if there is one. -/
def State.CapsFit (w : State α) (id : String) : Prop :=
  ∀ target, w.store.shelf.get? id = some target → Engine.CapsFit w.settings.similarity.caps target

/-- The bookmark with an id and its candidates among all bookmarks. -/
def targetAmongAll (w : State α) (id : String) : Option (Bookmark × List Bookmark) :=
  (w.store.shelf.get? id).map fun b => (b, candidatesAmong b w.store.shelf.all w.settings.similarity.caps)

/-! ## Candidates -/

/-- A look-up that may be left out, and what follows it. -/
theorem run_unless {β γ : Type} {c : Bool} {a b : β} {t : Task α β} (k : β → Task α γ)
    (h : (if c then pure a else t).run w = (.ok b, w)) :
    (if c then pure a >>= k else t >>= k).run w = (k b).run w := by
  cases c with
  | true =>
    have hb : a = b := by simpa using h
    exact hb ▸ rfl
  | false =>
    have ht : t.run w = (.ok b, w) := by simpa using h
    rw [if_neg Bool.false_ne_true, Task.run_bind, ht, Task.follow_ok]

/-- **The candidates from the store are those among all bookmarks.** -/
theorem run_candidatesFromStore (h : Findable w) (ho : OneOffset w.store.shelf offset) {target : Bookmark} {caps : Caps}
    (hcaps : CapsFit caps target) :
    (candidatesFromStore target caps).run w = (.ok (candidatesAmong target w.store.shelf.all caps), w) := by
  have hdomain : (if target.domain.isEmpty then (pure [] : Task α (List Bookmark))
      else bookmarksOfDomain target.domain (some (caps.domain + 1))).run w =
        (.ok (sharing w.store.shelf (·.domain) target (some (caps.domain + 1))), w) := by
    unfold sharing
    split
    · rfl
    · rename_i hne
      have hfits : (some (caps.domain + 1)).all Number.fitsWord = true := hcaps.domain (by simpa using hne)
      rw [run_bookmarksOfDomain h.domain, Shelf.ofDomain_eq, Shelf.limited_of_fits hfits]
  have hcategory : (if target.category.isEmpty then (pure [] : Task α (List Bookmark))
      else bookmarksOfCategory target.category (some (caps.category + 1))).run w =
        (.ok (sharing w.store.shelf (·.category) target (some (caps.category + 1))), w) := by
    unfold sharing
    split
    · rfl
    · rename_i hne
      have hfits : (some (caps.category + 1)).all Number.fitsWord = true := hcaps.category (by simpa using hne)
      rw [run_bookmarksOfCategory h.category, Shelf.ofCategory_eq, Shelf.limited_of_fits hfits]
  have hpool : (if target.keywords.isEmpty then (pure [] : Task α (List Bookmark)) else allBookmarks).run w =
      (.ok (if target.keywords.isEmpty then [] else w.store.shelf.all), w) := by
    split
    · rfl
    · exact run_allBookmarks h.all
  rw [← select_sharing ho]
  exact (run_unless _ hdomain).trans ((run_unless _ hcategory).trans (run_unless _ hpool))

/-- Candidates cannot be looked up with a cap for the domain that the store does not know. -/
theorem candidatesFromStore_fails (h : w.Ready .getByDomain) (target : Bookmark) (caps : Caps)
    (hdomain : target.domain.isEmpty = false) (hcap : Number.fitsWord (caps.domain + 1) = false) :
    ∃ e, (candidatesFromStore target caps).run w = (.error e, w) := by
  have hlimit : (some (caps.domain + 1)).all Number.fitsWord = false := hcap
  obtain ⟨e, he⟩ := Shelf.limited_fails hlimit
    (w.store.shelf.all.filter fun b => Text.lower b.domain == Text.lower target.domain)
  refine ⟨e, ?_⟩
  simp only [candidatesFromStore, hdomain, Bool.false_eq_true, if_false, Task.run_bind, run_bookmarksOfDomain h,
    Shelf.ofDomain_eq, he, Task.follow_error]

/-- A bookmark is looked up with its candidates in the store. -/
theorem run_targetAndCandidates (h : Findable w) (ho : OneOffset w.store.shelf offset) {id : String}
    (hcaps : w.CapsFit id) : (targetAndCandidates id none).run w = (.ok (targetAmongAll w id), w) := by
  simp only [targetAndCandidates, Task.run_bind, run_bookmarkWithId h.one, Task.follow_ok, targetAmongAll]
  cases hget : w.store.shelf.get? id with
  | none => rfl
  | some target =>
    simp only [Task.run_bind, Task.run_look, Task.follow_ok, run_candidatesFromStore h ho (hcaps target hget),
      Task.run_pure, Option.map_some]

/-- A bookmark is looked up with the same candidates in the list of all bookmarks, whatever the caps are. -/
theorem run_targetAndCandidates_of_list (h : w.Ready .getOne) (id : String) :
    (targetAndCandidates id (some w.store.shelf.all)).run w = (.ok (targetAmongAll w id), w) := by
  simp only [targetAndCandidates, Task.run_bind, run_bookmarkWithId h, Task.follow_ok, targetAmongAll]
  cases w.store.shelf.get? id <;> rfl

/-! ## Records -/

section Records

variable [Scalar α]

/-- The records of a bookmark with its candidates among all bookmarks; without the bookmark there are none. -/
def recordsAmongAll (w : State α) (id : String) (topN : Option Int) : List (Record α) :=
  match targetAmongAll w id with
  | none => []
  | some (target, bs) => rankCandidates target bs (topN.getD w.settings.similarity.topN) w.now

/-- The state behind the computation of records: they are stored unless the bookmark is unknown or storing fails. -/
def afterRecords (w : State α) (id : String) (topN : Option Int) : State α :=
  match targetAmongAll w id with
  | none => w
  | some (target, _) => ((orElse (Task.locked (storeRecords target.id (recordsAmongAll w id topN))) ()).run w).2

theorem run_computeSimilar {id : String} {corpus : Option (List Bookmark)}
    (h : (targetAndCandidates id corpus).run w = (.ok (targetAmongAll w id), w)) (topN : Option Int) :
    (computeSimilar id topN corpus).run w = (.ok (recordsAmongAll w id topN), afterRecords w id topN) := by
  simp only [computeSimilar, Task.run_bind, run_orElse, h, Task.follow_ok, recordsAmongAll, afterRecords]
  cases targetAmongAll w id with
  | none => rfl
  | some p => simp only [Task.run_bind, Task.run_look, Task.follow_ok, run_orElse, Task.run_pure]

theorem run_computeSimilar_of_list (hone : w.Ready .getOne) (hall : w.Ready .getAll) (id : String)
    (topN : Option Int) : (allBookmarks >>= fun bs => computeSimilar id topN (some bs)).run w =
      (.ok (recordsAmongAll w id topN), afterRecords w id topN) := by
  rw [Task.run_bind, run_allBookmarks hall, Task.follow_ok]
  exact run_computeSimilar (run_targetAndCandidates_of_list hone id) topN

/-- **The records of a bookmark, and what is stored, are the same whether the candidates are looked up in the store or
drawn from the list of all bookmarks,** for all caps that the store knows.  They are those of the bookmarks that it is
compared with there, and replace its stored records. -/
theorem computeSimilar_of_list (h : Findable w) (ho : OneOffset w.store.shelf offset) {id : String}
    (hcaps : w.CapsFit id) (topN : Option Int) :
    ∃ (rs : List (Record α)) (w' : State α),
      (computeSimilar id topN none).run w = (.ok rs, w') ∧
      (allBookmarks >>= fun bs => computeSimilar id topN (some bs)).run w = (.ok rs, w') ∧
      ∀ target, w.store.shelf.get? id = some target →
        rs = rankCandidates target (candidatesAmong target w.store.shelf.all w.settings.similarity.caps)
            (topN.getD w.settings.similarity.topN) w.now ∧
          (w.Ready .storeSimilarities → w'.store.records = w.store.records.replace id rs) := by
  refine ⟨_, _, run_computeSimilar (run_targetAndCandidates h ho hcaps) topN,
    run_computeSimilar_of_list h.one h.all id topN, fun target htarget => ?_⟩
  have hid : target.id = id := (Shelf.contains_of_get? htarget).1
  have hamong : targetAmongAll w id =
      some (target, candidatesAmong target w.store.shelf.all w.settings.similarity.caps) := by
    rw [targetAmongAll, htarget, Option.map_some]
  refine ⟨by rw [recordsAmongAll, hamong], fun hstore => ?_⟩
  have hready : w.lock.Ready .storeSimilarities := hstore
  simp only [afterRecords, hamong, run_orElse, Task.run_locked, storeRecords, run_store hready, hid]
  rfl

/-- Of bookmarks of one day and domain, two of them with a fraction of a second, the newest other ones are compared. -/
theorem computeSimilar_of_list_sample :
    let time (clock : Nat) (h : clock < microsPerDay) : Timestamp := { Timestamp.epoch with clock, clock_lt := h }
    let a : Bookmark := { id := "a", domain := "x.org", dateAdded := time 0 (by decide) }
    let b : Bookmark := { id := "b", domain := "x.org", dateAdded := time 500000 (by decide) }
    let c : Bookmark := { id := "c", domain := "X.org", dateAdded := time 250000 (by decide) }
    let w : State Float :=
      { store := { shelf := ((({} : Shelf).put b).put c).put a },
        settings := { similarity := { caps := { domain := 1 } } } }
    let bs := candidatesAmong a w.store.shelf.all w.settings.similarity.caps
    Findable w ∧ OneOffset w.store.shelf 0 ∧ w.CapsFit "a" ∧ bs.map (·.id) = ["b"] ∧
      ∃ rs w', (computeSimilar "a" (some 5) none).run w = (.ok rs, w') ∧
        (allBookmarks >>= fun bs => computeSimilar "a" (some 5) (some bs)).run w = (.ok rs, w') ∧
        rs = rankCandidates a bs 5 w.now ∧ w'.store.records = w.store.records.replace "a" rs := by
  intro time a b c w bs
  have h : Findable w := ⟨⟨rfl, rfl⟩, ⟨rfl, rfl⟩, ⟨rfl, rfl⟩, ⟨rfl, rfl⟩⟩
  have ho : OneOffset w.store.shelf 0 := by decide +kernel
  have hall : w.store.shelf.all = [b, c, a] := Shelf.all_of_pairwise (by decide +kernel)
  have hids : bs.map (·.id) = ["b"] := by
    simp only [bs, candidatesAmong, newestFirst_all ho]
    rw [hall]
    decide +kernel
  have hcaps : w.CapsFit "a" := fun _ _ => ⟨fun _ => by decide, fun _ => by decide⟩
  obtain ⟨rs, w', hstore, hlist, hrecords⟩ := computeSimilar_of_list h ho hcaps (some 5)
  obtain ⟨hrs, hstored⟩ := hrecords a (by rfl)
  exact ⟨h, ho, hcaps, hids, rs, w', hstore, hlist, hrs, hstored ⟨rfl, rfl⟩⟩

/-- With the greatest number of 64 bits as the cap for the domain, the store does not look up the one other bookmark of
the domain, and it is compared only if it is drawn from the list. -/
theorem not_computeSimilar_of_list_widest :
    let a : Bookmark := { id := "a", title := "Lean", domain := "x.org" }
    let b : Bookmark := { id := "b", title := "Lean", domain := "x.org" }
    let w : State Float :=
      { store := { shelf := (({} : Shelf).put a).put b },
        settings := { similarity := { caps := { domain := 9223372036854775807 } } } }
    OneOffset w.store.shelf 0 ∧ (computeSimilar "b" none none).run w = (.ok [], w) ∧
      ∃ r w', (allBookmarks >>= fun bs => computeSimilar "b" none (some bs)).run w = (.ok [r], w') := by
  intro a b w
  have ho : OneOffset w.store.shelf 0 := by decide +kernel
  have hget : w.store.shelf.get? "b" = some b := by rfl
  refine ⟨ho, ?_, recordOf b w.now a, afterRecords w "b" none, ?_⟩
  · obtain ⟨e, he⟩ := candidatesFromStore_fails (w := w) ⟨rfl, rfl⟩ b w.settings.similarity.caps
      (by decide) (by decide)
    have hfails : (targetAndCandidates "b" none).run w = (.error e, w) := by
      simp only [targetAndCandidates, Task.run_bind, run_bookmarkWithId (w := w) ⟨rfl, rfl⟩, hget, Task.follow_ok,
        Task.run_look, he, Task.follow_error]
    simp only [computeSimilar, Task.run_bind, run_orElse, hfails, Task.follow_ok, Task.run_pure]
  · have hall : w.store.shelf.all = [a, b] := Shelf.all_of_pairwise (by decide +kernel)
    have hcandidates : candidatesAmong b w.store.shelf.all w.settings.similarity.caps = [a] := by
      have hnewest := newestFirst_all ho
      rw [hall] at hnewest ⊢
      exact candidatesAmong_of_domain hnewest (by decide) (by simp [a, b]) _
    have hrecords : recordsAmongAll w "b" none = [recordOf b w.now a] := by
      rw [recordsAmongAll, targetAmongAll, hget, Option.map_some, hcandidates]
      exact rankCandidates_of_pairwise (by decide +kernel) (List.pairwise_singleton _ _) (by decide) _
    rw [run_computeSimilar_of_list ⟨rfl, rfl⟩ ⟨rfl, rfl⟩, hrecords]

end Records

end Shelfmark.Engine
