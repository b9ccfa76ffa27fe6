import Mathlib.Data.List.Pairwise
import Shelfmark.Proofs.Store.Shelf
import Shelfmark.Proofs.Time.Offsets

/-!
# The newest bookmarks

The shelf lists bookmarks by the texts of their times.  So of two bookmarks the one that is listed first is not older,
unless the other one is misplaced (`Shelf.instant_le_iff_of_listOrder`).  The first bookmarks of a list are therefore
newest first, and the newest of all, exactly if none is misplaced behind one of them (`Shelf.newestFirst_iff`).
-/

namespace Shelfmark

open Timestamp (Misplaced)

variable {a b : Bookmark} {found out : List Bookmark}

/-! ## Newest first -/

/-- The bookmarks found stand newest first, and none of those left out is newer than one of them. -/
def NewestFirst (found out : List Bookmark) : Prop :=
  (found.Pairwise fun a b => b.dateAdded.instant ≤ a.dateAdded.instant) ∧
    ∀ a ∈ found, ∀ b ∈ out, b.dateAdded.instant ≤ a.dateAdded.instant

namespace Shelf

/-- A bookmark that is listed first is not misplaced behind the other one. -/
theorem not_misplaced_of_listOrder (h : listOrder a b = true) : ¬Misplaced a.dateAdded b.dateAdded := by
  intro hmisplaced
  have htext := (Timestamp.isoText_lt_iff_misplaced hmisplaced.1).mpr hmisplaced
  rcases listOrder_iff.mp h with hab | ⟨hab, _⟩
  · exact lt_asymm htext hab
  · exact ne_of_lt htext hab

/-- A bookmark that is listed first is not older, unless the other one is misplaced. -/
theorem instant_le_iff_of_listOrder (h : listOrder a b = true) :
    b.dateAdded.instant ≤ a.dateAdded.instant ↔ ¬Misplaced b.dateAdded a.dateAdded := by
  constructor
  · exact fun hle hmisplaced => not_lt_of_ge hle hmisplaced.1
  · intro hnot
    by_contra hlt
    have hlt : a.dateAdded.instant < b.dateAdded.instant := not_le.mp hlt
    rcases listOrder_iff.mp h with hab | ⟨hab, _⟩
    · exact hnot ((Timestamp.isoText_lt_iff_misplaced hlt).mp hab)
    · exact absurd hlt (Timestamp.isoText_injective hab ▸ lt_irrefl _)

/-- Neither of two bookmarks is misplaced behind the other. -/
def InPlace (a b : Bookmark) : Prop := ¬Misplaced a.dateAdded b.dateAdded ∧ ¬Misplaced b.dateAdded a.dateAdded

instance : Std.Symm InPlace := ⟨fun _ _ => And.symm⟩

/-- **The first bookmarks in the order of lists are newest first, and newer than the others, exactly if none is
misplaced behind one of them.** -/
theorem newestFirst_iff (h : (found ++ out).Pairwise fun a b => listOrder a b = true) :
    NewestFirst found out ↔ ∀ a ∈ found, ∀ b ∈ found ++ out, ¬Misplaced b.dateAdded a.dateAdded := by
  obtain ⟨hfound, _, hout⟩ := List.pairwise_append.mp h
  constructor
  · rintro ⟨hnewest, hnewer⟩ a ha b hb
    have hpairs : found.Pairwise (InPlace · ·) := (hfound.and hnewest).imp fun hab =>
      ⟨not_misplaced_of_listOrder hab.1, (instant_le_iff_of_listOrder hab.1).mp hab.2⟩
    rcases List.mem_append.mp hb with hb | hb
    · rcases eq_or_ne a b with rfl | hne
      · exact fun hself => lt_irrefl _ hself.1
      · exact (hpairs.forall ha hb hne).2
    · exact (instant_le_iff_of_listOrder (hout a ha b hb)).mp (hnewer a ha b hb)
  · intro hnone
    refine ⟨hfound.imp_of_mem fun {a b} ha hb hab => ?_, fun a ha b hb => ?_⟩
    · exact (instant_le_iff_of_listOrder hab).mpr (hnone a ha b (List.mem_append_left _ hb))
    · exact (instant_le_iff_of_listOrder (hout a ha b hb)).mpr (hnone a ha b (List.mem_append_right _ hb))

/-! ## Limits -/

/-- How many of some members a limit keeps. -/
def kept (limit : Option Int) (count : Nat) : Nat :=
  match limit with
  | none => count
  | some n => if n < 0 then count else min n.toNat count

/-- A limit keeps the first members. -/
theorem exists_cutOff_append {β : Type} (limit : Option Int) (xs : List β) :
    ∃ out, cutOff limit xs ++ out = xs ∧ (cutOff limit xs).length = kept limit xs.length := by
  cases limit with
  | none => exact ⟨[], List.append_nil xs, rfl⟩
  | some n =>
    simp only [cutOff, kept]
    split
    · exact ⟨[], List.append_nil xs, rfl⟩
    · exact ⟨xs.drop n.toNat, List.take_append_drop n.toNat xs, List.length_take⟩

end Shelf

end Shelfmark
