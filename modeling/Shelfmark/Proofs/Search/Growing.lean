import Shelfmark.Proofs.Search.Lookup

/-!
# Queries that grow

What is added to a free text changes what is found in one direction only, with every index and without any.

- One more positive or negative term, phrase or pattern is one more demand on every bookmark: of those found before, the
  ones that meet it are found (`retrieve_demanding`).
- One more regular term beside others is one more way to be found: none of those found before is missing
  (`retrieve_asking`), also where an index answered before that could not know the new term.
-/

namespace Shelfmark.Search

open Query

/-- What a free text can demand of every bookmark. -/
inductive Demand
  | positive (term : String)
  | negative (term : String)
  | phrase (text : String)
  | pattern (p : Pattern)

/-- A list with one more member at a place, or at its end if it does not reach so far. -/
def inserted {β : Type} (place : Nat) (x : β) (xs : List β) : List β := xs.take place ++ x :: xs.drop place

variable {β : Type} {x : β} {xs : List β} {place : Nat} {b : Bookmark} {bs : List Bookmark} {q r : TextQuery}
  {access : IndexAccess} {fields : List String} {boost : Boost} {term : String} {d : Demand}

theorem perm_inserted : (inserted place x xs).Perm (x :: xs) := by
  have hfront : (inserted place x xs).Perm (x :: (xs.take place ++ xs.drop place)) := List.perm_middle
  rwa [List.take_append_drop] at hfront

@[simp] theorem mem_inserted {y : β} : y ∈ inserted place x xs ↔ y = x ∨ y ∈ xs := by
  rw [perm_inserted.mem_iff, List.mem_cons]

@[simp] theorem all_inserted (p : β → Bool) : (inserted place x xs).all p = (p x && xs.all p) := by
  rw [perm_inserted.all_eq, List.all_cons]

@[simp] theorem any_inserted (p : β → Bool) : (inserted place x xs).any p = (p x || xs.any p) := by
  rw [perm_inserted.any_eq, List.any_cons]

/-! ## Scans -/

/-- More bookmarks, and a free text that asks for no less of them. -/
theorem scan_mono {bs' : List Bookmark} (hbs : bs.Sublist bs') (h : ∀ b, q.fits b = true → r.fits b = true) :
    (scan bs q).Sublist (scan bs' r) :=
  (List.monotone_filter_right bs h).trans (hbs.filter _)

/-! ## One more demand -/

/-- A bookmark meets a demand. -/
def Demand.holds (b : Bookmark) : Demand → Bool
  | positive term => Text.contains (Text.lower b.searchableText) term
  | negative term => !Text.contains (Text.lower b.searchableText) term
  | phrase text => Text.contains (Text.lower b.searchableText) text
  | pattern p => TextQuery.patternFits b.searchableText (Text.lower b.searchableText) p

/-- A free text with one more demand. -/
def demanding (place : Nat) (d : Demand) (q : TextQuery) : TextQuery :=
  match d with
  | .positive term => { q with positive := inserted place term q.positive }
  | .negative term => { q with negative := inserted place term q.negative }
  | .phrase text => { q with phrases := inserted place text q.phrases }
  | .pattern p => { q with patterns := inserted place p q.patterns }

@[simp] theorem regular_demanding : (demanding place d q).regular = q.regular := by
  cases d <;> rfl

theorem fits_demanding : (demanding place d q).fits b = (d.holds b && q.fits b) := by
  cases d <;> simp only [demanding, TextQuery.fits, TextQuery.fitsText, all_inserted, Demand.holds, Bool.and_assoc,
    Bool.and_left_comm]

theorem scan_demanding : scan bs (demanding place d q) = (scan bs q).filter fun b => d.holds b := by
  rw [scan, scan, List.filter_filter]
  exact List.filter_congr fun b _ => fits_demanding

/-- **One more demand** is met by the bookmarks that are found with it, and none that meets it is missing of those found
without; the index lets the search down as before. -/
theorem retrieve_demanding : retrieve bs (demanding place d q) access fields boost =
    ((retrieve bs q access fields boost).1.filter fun b => d.holds b, (retrieve bs q access fields boost).2) := by
  unfold retrieve
  rw [regular_demanding]
  split
  · rw [scan_demanding]
  · cases access with
    | missing | failing => dsimp only; rw [scan_demanding]
    | ready ix =>
      dsimp only
      split
      · cases ix.search q.regular fields boost <;> simp only [scan_demanding]
      · rw [scan_demanding]

/-! ## One more regular term -/

/-- A free text with one more regular term. -/
def asking (place : Nat) (term : String) (q : TextQuery) : TextQuery :=
  { q with regular := inserted place term q.regular }

theorem regular_asking_ne_nil : (asking place term q).regular ≠ [] :=
  List.ne_nil_of_mem (mem_inserted.mpr (Or.inl rfl))

/-- A text that one of some terms is enough for needs no other one. -/
theorem fits_asking (hr : q.regular ≠ []) (h : q.fits b = true) : (asking place term q).fits b = true := by
  rw [TextQuery.fits, TextQuery.fitsText, Bool.and_eq_true] at h ⊢
  refine ⟨h.1, ?_⟩
  have hany : q.regular.any (Text.contains (Text.lower b.searchableText)) = true := by
    simpa [hr] using h.2
  simp only [asking, any_inserted, hany, Bool.or_true]

/-- **One more regular term beside others** is one more way to be found.  An index that knows all the terms finds no
bookmark less by them; one that cannot know the new term is not asked, and the scan leaves nothing out. -/
theorem retrieve_asking (hr : q.regular ≠ []) : (retrieve bs q access fields boost).1.Sublist
    (retrieve bs (asking place term q) access fields boost).1 := by
  have hfits : ∀ b, q.fits b = true → (asking place term q).fits b = true := fun b => fits_asking hr
  have hscan : (retrieve bs q access fields boost).1.Sublist (scan bs (asking place term q)) :=
    retrieve_sublist_scan.trans (scan_mono (List.Sublist.refl bs) hfits)
  cases access with
  | missing | failing => simpa [retrieve, regular_asking_ne_nil] using hscan
  | ready ix =>
    by_cases hall : (asking place term q).regular.all Index.isSearchable = true
    · have hold : q.regular.all Index.isSearchable = true := by
        rw [asking, all_inserted, Bool.and_eq_true] at hall
        exact hall.2
      have hterms : ∀ t ∈ q.regular, t ∈ (asking place term q).regular := fun t ht => mem_inserted.mpr (Or.inr ht)
      have hids : (withIds ((ix.ranking q.regular fields boost).map Prod.fst) bs).Sublist
          (withIds ((ix.ranking (asking place term q).regular fields boost).map Prod.fst) bs) := by
        refine List.monotone_filter_right bs fun b hb => ?_
        rw [List.contains_iff_mem] at hb ⊢
        exact Index.ranking_mono hterms hb
      cases hnew : ix.overflows (Index.queryWords (asking place term q).regular) (ix.searchFields fields)
          (Index.weights boost) with
      | true =>
        obtain ⟨e, he⟩ := Index.search_fails hnew
        simpa [retrieve, regular_asking_ne_nil, hall, he] using hscan
      | false =>
        have hold' : ix.overflows (Index.queryWords q.regular) (ix.searchFields fields) (Index.weights boost) = false :=
          Bool.eq_false_iff.mpr fun ho => by rw [Index.overflows_mono hterms ho] at hnew; cases hnew
        simpa [retrieve, regular_asking_ne_nil, hr, hall, hold, Index.search_eq_ok hnew, Index.search_eq_ok hold']
          using scan_mono hids hfits
    · simpa [retrieve, regular_asking_ne_nil, hall] using hscan

/-- **What is found grows and shrinks with the query.**  With one more demand a part of what was found before is found,
namely what meets the demand.  With one more regular term beside others nothing is missing of what was found before; if
an index could not know the new term, all bookmarks of the scan are found. -/
theorem retrieve_monotone (bs : List Bookmark) (q : TextQuery) (access : IndexAccess) (fields : List String)
    (boost : Boost) (place : Nat) :
    (∀ d, (retrieve bs (demanding place d q) access fields boost).1.Sublist (retrieve bs q access fields boost).1 ∧
      retrieve bs (demanding place d q) access fields boost =
        ((retrieve bs q access fields boost).1.filter fun b => d.holds b, (retrieve bs q access fields boost).2)) ∧
    (q.regular ≠ [] → ∀ term,
      (retrieve bs q access fields boost).1.Sublist (retrieve bs (asking place term q) access fields boost).1 ∧
      ∀ ix, access = .ready ix → Text.indexWords term = [] →
        retrieve bs (asking place term q) access fields boost = (scan bs (asking place term q), false)) := by
  refine ⟨fun d => ⟨?_, retrieve_demanding⟩, fun hr term => ⟨retrieve_asking hr, ?_⟩⟩
  · rw [retrieve_demanding]
    exact List.filter_sublist
  · rintro ix rfl hterm
    exact retrieve_unsearchable regular_asking_ne_nil ⟨term, mem_inserted.mpr (Or.inl rfl), hterm⟩

/-- An index that has fallen behind misses a bookmark; with a term that it could not know the bookmark is found. -/
theorem retrieve_monotone_sample :
    let b : Bookmark := { id := "a", title := "Lean" }
    let q : TextQuery := { regular := ["lean"] }
    q.regular ≠ [] ∧ retrieve [b] q (.ready {}) [] [] = ([], false) ∧
      retrieve [b] (asking 0 "++" q) (.ready {}) [] [] = ([b], false) ∧
      (retrieve [b] q (.ready {}) [] []).1.Sublist (retrieve [b] (asking 0 "++" q) (.ready {}) [] []).1 := by
  intro b q
  have hr : q.regular ≠ [] := by decide
  obtain ⟨hsub, hscan⟩ := (retrieve_monotone [b] q (.ready {}) [] [] 0).2 hr "++"
  have hfits : (asking 0 "++" q).fits b = true := by decide +kernel
  have hnone : ({} : Index).search q.regular [] [] = .ok [] := by
    have hempty : ({} : Index).overflows (Index.queryWords q.regular) (({} : Index).searchFields [])
        (Index.weights []) = false := by simp [Index.overflows, Postings.idsAt]
    rw [Index.search_eq_ok hempty]
    simp [Index.ranking, Index.totals]
  have hknown : q.regular.all Index.isSearchable = true := by decide +kernel
  refine ⟨hr, ?_, ?_, hsub⟩
  · simp [retrieve, hr, hknown, hnone, withIds, scan]
  · rw [hscan {} rfl (by decide +kernel), scan, List.filter_cons_of_pos hfits, List.filter_nil]

end Shelfmark.Search
