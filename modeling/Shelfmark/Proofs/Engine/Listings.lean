import Shelfmark.Proofs.Engine.Candidates
import Shelfmark.Proofs.Store.Newest

/-!
# Listed bookmarks

All bookmarks are looked up newest first, and so are those of a domain or a category, of which a limit keeps the newest
ones, exactly if no bookmark is misplaced behind one that is listed (`lists_unless_misplaced`).  Where all times have
one offset, none is.
-/

namespace Shelfmark.Engine

open Timestamp (Misplaced)

variable {α : Type} {w : State α} {look : Task α (List Bookmark)} {limit : Option Int}

/-! ## Look-ups -/

/-- A look-up lists some bookmarks up to a limit, and leaves others out.  They are newest first unless some are
misplaced, which bookmarks with one offset never are. -/
structure LooksUp (w : State α) (look : Task α (List Bookmark)) (limit : Option Int)
    (bs found out : List Bookmark) : Prop where
  run_eq : look.run w = (.ok found, w)
  perm : (found ++ out).Perm bs
  length_eq : found.length = Shelf.kept limit bs.length
  newestFirst_iff : NewestFirst found out ↔ ∀ a ∈ found, ∀ b ∈ bs, ¬Misplaced b.dateAdded a.dateAdded
  newestFirst_of_offset_eq : (∀ a ∈ bs, ∀ b ∈ bs, a.dateAdded.offset = b.dateAdded.offset) → NewestFirst found out

/-- The first of the bookmarks with some property, as all bookmarks are listed. -/
theorem exists_looksUp (p : Bookmark → Bool)
    (hrun : look.run w = (.ok (Shelf.cutOff limit (w.store.shelf.all.filter p)), w)) :
    ∃ found out, LooksUp w look limit (w.store.shelf.bookmarks.filter p) found out := by
  obtain ⟨out, happend, hlength⟩ := Shelf.exists_cutOff_append limit (w.store.shelf.all.filter p)
  have hperm : (w.store.shelf.all.filter p).Perm (w.store.shelf.bookmarks.filter p) :=
    (Shelf.perm_all _).filter p
  have hsorted : (w.store.shelf.all.filter p).Pairwise fun a b => Shelf.listOrder a b = true :=
    (Shelf.pairwise_all _).filter p
  generalize Shelf.cutOff limit (w.store.shelf.all.filter p) = found at hrun happend hlength
  rw [hperm.length_eq] at hlength
  rw [← happend] at hperm hsorted
  have hiff := Shelf.newestFirst_iff hsorted
  simp only [hperm.mem_iff] at hiff
  refine ⟨found, out, hrun, hperm, hlength, hiff, fun hoffset => hiff.mpr fun a ha b hb => ?_⟩
  exact Timestamp.not_misplaced_of_offset_eq (hoffset b hb a (hperm.mem_iff.mp (List.mem_append_left out ha)))

/-- **All bookmarks, those of a domain and those of a category are listed newest first, with the newest ones kept by a
limit, exactly if none of them is misplaced behind one that is listed.  A limit beyond 64 bits is no limit that the
store takes, and the look-up fails.** -/
theorem lists_unless_misplaced (hall : w.Ready .getAll) (hdomain : w.Ready .getByDomain)
    (hcategory : w.Ready .getByCategory) (v : String) (limit : Option Int) :
    (∃ found out, LooksUp w allBookmarks none w.store.shelf.bookmarks found out) ∧
    (limit.all Number.fitsWord = true →
      (∃ found out, LooksUp w (bookmarksOfDomain v limit) limit
        (w.store.shelf.bookmarks.filter fun b => Text.lower b.domain == Text.lower v) found out) ∧
      ∃ found out, LooksUp w (bookmarksOfCategory v limit) limit
        (w.store.shelf.bookmarks.filter fun b => Text.lower b.category == Text.lower v) found out) ∧
    (limit.all Number.fitsWord = false →
      (∃ e, (bookmarksOfDomain v limit).run w = (.error e, w)) ∧
      ∃ e, (bookmarksOfCategory v limit).run w = (.error e, w)) := by
  refine ⟨?_, fun hfits => ⟨?_, ?_⟩, fun hbeyond => ⟨?_, ?_⟩⟩
  · have hrun : allBookmarks.run w = (.ok (Shelf.cutOff none (w.store.shelf.all.filter fun _ => true)), w) := by
      rw [run_allBookmarks hall, List.filter_true]
      rfl
    have hlooksUp := exists_looksUp _ hrun
    rwa [List.filter_true] at hlooksUp
  · exact exists_looksUp _ (by rw [run_bookmarksOfDomain hdomain, Shelf.ofDomain_eq, Shelf.limited_of_fits hfits])
  · exact exists_looksUp _ (by
      rw [run_bookmarksOfCategory hcategory, Shelf.ofCategory_eq, Shelf.limited_of_fits hfits])
  · obtain ⟨e, he⟩ := Shelf.limited_fails hbeyond
      (w.store.shelf.all.filter fun b => Text.lower b.domain == Text.lower v)
    exact ⟨e, by rw [run_bookmarksOfDomain hdomain, Shelf.ofDomain_eq, he]⟩
  · obtain ⟨e, he⟩ := Shelf.limited_fails hbeyond
      (w.store.shelf.all.filter fun b => Text.lower b.category == Text.lower v)
    exact ⟨e, by rw [run_bookmarksOfCategory hcategory, Shelf.ofCategory_eq, he]⟩

/-- Ten o'clock at an offset of two hours is before nine o'clock in universal time, but is listed first. -/
theorem lists_unless_misplaced_sample :
    let day : Date := ⟨2024, 1, 1, by decide⟩
    let ten : Timestamp := ⟨day, 36000000000, 7200000000, by decide, by decide⟩
    let nine : Timestamp := ⟨day, 32400000000, 0, by decide, by decide⟩
    let noon : Timestamp := ⟨day, 43200000000, 0, by decide, by decide⟩
    let a : Bookmark := { id := "a", domain := "x.org", dateAdded := ten }
    let b : Bookmark := { id := "b", domain := "y.org", dateAdded := nine }
    let c : Bookmark := { id := "c", domain := "x.org", dateAdded := noon }
    let w : State Float := { store := { shelf := ((({} : Shelf).put a).put b).put c } }
    w.Ready .getAll ∧ w.Ready .getByDomain ∧ w.Ready .getByCategory ∧
      (∃ found out, LooksUp w allBookmarks none w.store.shelf.bookmarks found out ∧ ¬NewestFirst found out) ∧
      ∃ found out, (bookmarksOfDomain "X.org" (some 1)).run w = (.ok found, w) ∧ found.length = 1 ∧
        NewestFirst found out := by
  intro day ten nine noon a b c w
  have hshelf : w.store.shelf.bookmarks = [a, b, c] := by rfl
  have hdomain : (w.store.shelf.bookmarks.filter fun b => Text.lower b.domain == Text.lower "X.org") = [a, c] := by
    have hx : (Text.lower a.domain == Text.lower "X.org") = true := by decide +kernel
    have hy : (Text.lower b.domain == Text.lower "X.org") = false := by decide +kernel
    have hx' : (Text.lower c.domain == Text.lower "X.org") = true := by decide +kernel
    simp only [hshelf, List.filter, hx, hy, hx']
  obtain ⟨⟨found, out, hall⟩, hfits, _⟩ :=
    lists_unless_misplaced (w := w) ⟨rfl, rfl⟩ ⟨rfl, rfl⟩ ⟨rfl, rfl⟩ "X.org" (some 1)
  obtain ⟨⟨found', out', hsome⟩, _⟩ := hfits (by decide)
  rw [hdomain] at hsome
  refine ⟨⟨rfl, rfl⟩, ⟨rfl, rfl⟩, ⟨rfl, rfl⟩, ⟨found, out, hall, fun hnewest => ?_⟩, found', out', hsome.run_eq,
    hsome.length_eq, hsome.newestFirst_iff.mpr fun x hx y hy => ?_⟩
  · have hout : out = [] := by
      have hcount := hall.perm.length_eq
      rw [List.length_append, hall.length_eq] at hcount
      exact List.eq_nil_of_length_eq_zero (Nat.add_eq_left.mp hcount)
    have ha : a ∈ found := by
      have hmem := hall.perm.mem_iff (a := a)
      rw [hout, List.append_nil, hshelf] at hmem
      exact hmem.mpr (by simp)
    exact hall.newestFirst_iff.mp hnewest a ha b (by rw [hshelf]; simp) (by decide)
  · have hmem : x ∈ [a, c] := hsome.perm.mem_iff.mp (List.mem_append_left out' hx)
    simp only [List.mem_cons, List.not_mem_nil, or_false] at hmem hy
    rcases hmem with rfl | rfl <;> rcases hy with rfl | rfl <;> decide

/-- Not all bookmarks of every shelf are listed newest first. -/
theorem not_lists_newest_first : ¬ ∀ w : State Float, w.Ready .getAll →
    ∃ found, allBookmarks.run w = (.ok found, w) ∧ NewestFirst found [] := by
  intro hevery
  let day : Date := ⟨2024, 1, 1, by decide⟩
  let ten : Timestamp := ⟨day, 36000000000, 7200000000, by decide, by decide⟩
  let nine : Timestamp := ⟨day, 32400000000, 0, by decide, by decide⟩
  let a : Bookmark := { id := "a", dateAdded := ten }
  let b : Bookmark := { id := "b", dateAdded := nine }
  let w : State Float := { store := { shelf := (({} : Shelf).put a).put b } }
  have hshelf : w.store.shelf.bookmarks = [a, b] := by rfl
  obtain ⟨found, hrun, hnewest⟩ := hevery w ⟨rfl, rfl⟩
  rw [run_allBookmarks ⟨rfl, rfl⟩, Prod.mk.injEq, Except.ok.injEq] at hrun
  obtain ⟨rfl, _⟩ := hrun
  have hmem : ∀ x, x ∈ w.store.shelf.all ↔ x ∈ [a, b] := fun x => by rw [Shelf.mem_all, hshelf]
  have hsorted : (w.store.shelf.all ++ []).Pairwise fun a b => Shelf.listOrder a b = true := by
    rw [List.append_nil]
    exact Shelf.pairwise_all _
  have hplaced := (Shelf.newestFirst_iff hsorted).mp hnewest a ((hmem a).mpr (by simp)) b
    (List.mem_append_left _ ((hmem b).mpr (by simp)))
  exact hplaced (by decide)

end Shelfmark.Engine
