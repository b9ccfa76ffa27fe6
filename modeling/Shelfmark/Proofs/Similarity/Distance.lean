import Mathlib.Data.List.Nodup
import Shelfmark.Proofs.Order.Scalars
import Shelfmark.Similarity.Distance

/-!
# Distances

The row of distances of a text to all ends of another holds those to the shorter ends behind the first one
(`distanceRows_cons`), which gives the recurrence of the edit distance (`editDistance_cons_cons`).

So the distance does not depend on the order of the two texts (`editDistance_comm`), and neither do the closeness of two
texts and the overlap of two sets (`closeness_comm`, `overlap_comm`).  It is the least number of edits that turn the one
text into the other (`Edits`, `isLeast_editDistance`), so it is zero for equal texts and never more than the length of
the longer one.

Computed exactly, closeness and overlap lie between zero and one (`closeness_nonneg`, `closeness_le_one`,
`overlap_nonneg`, `overlap_le_one`), and are one for equal texts and for equal sets (`closeness_self`, `overlap_self`).
-/

namespace Shelfmark.Similarity

/-! ## Rows -/

@[simp] theorem distanceRows_nil : ∀ cs : List Char, distanceRows [] cs = [cs.length]
  | [] => rfl
  | c :: rest => by rw [distanceRows, distanceRows_nil rest, List.length_cons]; rfl

/-- **The distances to the ends of a shorter text stand behind that to a longer one.** -/
theorem distanceRows_cons (b : Char) (bs : List Char) : ∀ cs : List Char,
    distanceRows (b :: bs) cs = editDistance cs (b :: bs) :: distanceRows bs cs
  | [] => by simp [editDistance, distanceRows, List.range_succ]
  | c :: rest => by
    have hshort : ∃ q row, distanceRows bs rest = q :: row := by
      cases bs with
      | nil => exact ⟨_, _, distanceRows_nil rest⟩
      | cons b' bs => exact ⟨_, _, distanceRows_cons b' bs rest⟩
    obtain ⟨q, row, hq⟩ := hshort
    have hrow : distanceRows (b :: bs) rest = editDistance rest (b :: bs) :: q :: row := by
      rw [distanceRows_cons b bs rest, hq]
    simp only [editDistance, distanceRows] at hrow ⊢
    rw [hrow, hq]
    rfl

theorem distanceRows_eq_cons (bs cs : List Char) : ∃ row, distanceRows bs cs = editDistance cs bs :: row := by
  cases bs with
  | nil => exact ⟨[], by simp [editDistance]⟩
  | cons b bs => exact ⟨_, distanceRows_cons b bs cs⟩

/-! ## The recurrence -/

@[simp] theorem editDistance_nil_left (bs : List Char) : editDistance [] bs = bs.length := by
  simp [editDistance, distanceRows, List.range_succ]

@[simp] theorem editDistance_nil_right (cs : List Char) : editDistance cs [] = cs.length := by
  simp [editDistance]

/-- **The first characters are kept or replaced, or one of them is left out.** -/
theorem editDistance_cons_cons (c b : Char) (cs bs : List Char) : editDistance (c :: cs) (b :: bs) =
    min (if c == b then editDistance cs bs else editDistance cs bs + 1)
      (min (editDistance cs (b :: bs) + 1) (editDistance (c :: cs) bs + 1)) := by
  obtain ⟨row, hrow⟩ := distanceRows_eq_cons bs cs
  have hbelow : distanceRows bs (c :: cs) = distanceRow c bs (editDistance cs bs :: row) := by
    rw [distanceRows, hrow]
  have hshorter : editDistance (c :: cs) bs = (distanceRow c bs (editDistance cs bs :: row)).headD 0 := by
    rw [← hbelow]
    rfl
  rw [hshorter]
  show (distanceRow c (b :: bs) (distanceRows (b :: bs) cs)).headD 0 = _
  rw [distanceRows_cons, hrow]
  rfl

/-- **The distance is the same in both directions.** -/
theorem editDistance_comm : ∀ cs bs : List Char, editDistance cs bs = editDistance bs cs
  | [], bs => by simp
  | c :: cs, [] => by simp
  | c :: cs, b :: bs => by
    have hcb : (c == b) = (b == c) := BEq.comm
    rw [editDistance_cons_cons, editDistance_cons_cons, editDistance_comm cs bs, editDistance_comm cs (b :: bs),
      editDistance_comm (c :: cs) bs, hcb]
    omega

/-! ## Edits -/

/-- So many edits turn one text into another: a character is kept for nothing, and replaced, deleted or inserted for
one. -/
inductive Edits : Nat → List Char → List Char → Prop
  | nil : Edits 0 [] []
  | keep {n : Nat} {cs bs : List Char} (c : Char) (h : Edits n cs bs) : Edits n (c :: cs) (c :: bs)
  | replace {n : Nat} {cs bs : List Char} (c b : Char) (h : Edits n cs bs) : Edits (n + 1) (c :: cs) (b :: bs)
  | delete {n : Nat} {cs bs : List Char} (c : Char) (h : Edits n cs bs) : Edits (n + 1) (c :: cs) bs
  | insert {n : Nat} {cs bs : List Char} (b : Char) (h : Edits n cs bs) : Edits (n + 1) cs (b :: bs)

section Edits

variable {n : Nat} {cs bs : List Char}

theorem edits_nil_left : ∀ bs : List Char, Edits bs.length [] bs
  | [] => .nil
  | b :: bs => .insert b (edits_nil_left bs)

theorem edits_nil_right : ∀ cs : List Char, Edits cs.length cs []
  | [] => .nil
  | c :: cs => .delete c (edits_nil_right cs)

theorem edits_self : ∀ cs : List Char, Edits 0 cs cs
  | [] => .nil
  | c :: cs => .keep c (edits_self cs)

/-- A text is turned into another by replacing, and then deleting or inserting, its characters. -/
theorem exists_edits_le_max : ∀ cs bs : List Char, ∃ n ≤ max cs.length bs.length, Edits n cs bs
  | [], bs => ⟨bs.length, by simp, edits_nil_left bs⟩
  | c :: cs, [] => ⟨(c :: cs).length, by simp, edits_nil_right (c :: cs)⟩
  | c :: cs, b :: bs => by
    obtain ⟨n, hn, h⟩ := exists_edits_le_max cs bs
    exact ⟨n + 1, by simpa [Nat.add_max_add_right] using hn, .replace c b h⟩

theorem editDistance_cons_left_le (c : Char) (cs bs : List Char) :
    editDistance (c :: cs) bs ≤ editDistance cs bs + 1 := by
  cases bs with
  | nil => simp
  | cons b bs =>
    rw [editDistance_cons_cons]
    omega

theorem editDistance_cons_cons_le (c b : Char) (cs bs : List Char) :
    editDistance (c :: cs) (b :: bs) ≤ if c == b then editDistance cs bs else editDistance cs bs + 1 := by
  rw [editDistance_cons_cons]
  omega

/-- **No fewer edits than the distance will do.** -/
theorem editDistance_le_of_edits (h : Edits n cs bs) : editDistance cs bs ≤ n := by
  induction h with
  | nil => simp
  | @keep n cs bs c _ ih =>
    have hstep := editDistance_cons_cons_le c c cs bs
    rw [if_pos (beq_self_eq_true c)] at hstep
    omega
  | @replace n cs bs c b _ ih =>
    have hstep := editDistance_cons_cons_le c b cs bs
    split at hstep <;> omega
  | @delete n cs bs c _ ih =>
    have hstep := editDistance_cons_left_le c cs bs
    omega
  | @insert n cs bs b _ ih =>
    have hstep := editDistance_cons_left_le b bs cs
    rw [editDistance_comm (b :: bs), editDistance_comm bs] at hstep
    omega

/-- **As many edits as the distance will do.** -/
theorem edits_editDistance : ∀ cs bs : List Char, Edits (editDistance cs bs) cs bs
  | [], bs => by
    rw [editDistance_nil_left]
    exact edits_nil_left bs
  | c :: cs, [] => by
    rw [editDistance_nil_right]
    exact edits_nil_right (c :: cs)
  | c :: cs, b :: bs => by
    have hstep := editDistance_cons_cons c b cs bs
    rcases min_choice (if c == b then editDistance cs bs else editDistance cs bs + 1)
      (min (editDistance cs (b :: bs) + 1) (editDistance (c :: cs) bs + 1)) with hfirst | hother
    · rw [hstep, hfirst]
      split
      · rename_i hcb
        obtain rfl := beq_iff_eq.mp hcb
        exact .keep c (edits_editDistance cs bs)
      · exact .replace c b (edits_editDistance cs bs)
    · rw [hstep, hother]
      rcases min_choice (editDistance cs (b :: bs) + 1) (editDistance (c :: cs) bs + 1) with hleft | hright
      · rw [hleft]
        exact .delete c (edits_editDistance cs (b :: bs))
      · rw [hright]
        exact .insert b (edits_editDistance (c :: cs) bs)

/-- **The distance is the least number of edits.** -/
theorem isLeast_editDistance (cs bs : List Char) : IsLeast {n | Edits n cs bs} (editDistance cs bs) :=
  ⟨edits_editDistance cs bs, fun _ h => editDistance_le_of_edits h⟩

theorem editDistance_self (cs : List Char) : editDistance cs cs = 0 :=
  Nat.le_zero.mp (editDistance_le_of_edits (edits_self cs))

theorem editDistance_le_max (cs bs : List Char) : editDistance cs bs ≤ max cs.length bs.length := by
  obtain ⟨n, hn, h⟩ := exists_edits_le_max cs bs
  exact (editDistance_le_of_edits h).trans hn

end Edits

/-! ## Closeness and overlap -/

section Scalars

variable {α : Type} [Scalar α]

theorem closeness_comm (cs bs : List Char) : (closeness cs bs : α) = closeness bs cs := by
  simp only [closeness, max_comm cs.length, editDistance_comm cs]

/-- Two sets have as many members in common, whichever of them is looked through. -/
theorem length_common_comm {xs ys : List String} (hx : xs.Nodup) (hy : ys.Nodup) :
    (xs.filter ys.contains).length = (ys.filter xs.contains).length := by
  refine List.Perm.length_eq ((List.perm_ext_iff_of_nodup (hx.filter _) (hy.filter _)).mpr fun x => ?_)
  simp [and_comm]

theorem overlap_comm {xs ys : List String} (hx : xs.Nodup) (hy : ys.Nodup) :
    (overlap xs ys : Option α) = overlap ys xs := by
  simp only [overlap, length_common_comm hx hy, Bool.and_comm xs.isEmpty, Nat.add_comm xs.length]

end Scalars

/-! ## Exact values -/

section Exact

variable {K : Type} [Field K] [LinearOrder K] [IsStrictOrderedRing K]

theorem closeness_le_one (cs bs : List Char) : (closeness cs bs : K) ≤ 1 := by
  unfold closeness
  dsimp only
  split
  · simp [Scalar.one]
  · have hpart : (0 : K) ≤ Scalar.ratio (editDistance cs bs) (max cs.length bs.length) :=
      div_nonneg (Nat.cast_nonneg _) (Nat.cast_nonneg _)
    simpa [Scalar.one] using hpart

/-- **Closeness is one less the distance as a part of the longer text.** -/
theorem closeness_eq (cs bs : List Char) : (closeness cs bs : K) =
    if cs = [] ∧ bs = [] then 1 else 1 - (editDistance cs bs : K) / (max cs.length bs.length : Nat) := by
  by_cases hempty : cs = [] ∧ bs = []
  · obtain ⟨rfl, rfl⟩ := hempty
    simp [closeness]
  · have hlongest : ¬max cs.length bs.length = 0 := by
      rw [Nat.max_eq_zero_iff, List.length_eq_zero_iff, List.length_eq_zero_iff]
      exact hempty
    simp [closeness, hempty, hlongest]

theorem closeness_nonneg (cs bs : List Char) : 0 ≤ (closeness cs bs : K) := by
  rw [closeness_eq]
  split
  · exact zero_le_one
  · exact sub_nonneg.mpr (div_le_one_of_le₀ (Nat.cast_le.mpr (editDistance_le_max cs bs)) (Nat.cast_nonneg _))

theorem closeness_self (cs : List Char) : (closeness cs cs : K) = 1 := by
  simp [closeness_eq, editDistance_self]

theorem overlap_nonneg {xs ys : List String} {v : K} (h : overlap xs ys = some v) : 0 ≤ v := by
  unfold overlap at h
  split at h
  · cases h
  · obtain rfl := Option.some.inj h
    exact div_nonneg (Nat.cast_nonneg _) (Nat.cast_nonneg _)

theorem overlap_self {xs : List String} {v : K} (h : overlap xs xs = some v) : v = 1 := by
  have hcommon : xs.filter xs.contains = xs := List.filter_eq_self.mpr fun x hx => by simpa using hx
  unfold overlap at h
  split at h
  · cases h
  · rename_i hne
    have hlength : (xs.length : K) ≠ 0 := by simpa using hne
    obtain rfl := Option.some.inj h
    simp [hcommon, hlength]

theorem overlap_le_one {xs ys : List String} (hx : xs.Nodup) (hy : ys.Nodup) {v : K} (h : overlap xs ys = some v) :
    v ≤ 1 := by
  have hleft := List.length_filter_le ys.contains xs
  have hright := List.length_filter_le xs.contains ys
  rw [← length_common_comm hx hy] at hright
  unfold overlap at h
  split at h
  · cases h
  · obtain rfl := Option.some.inj h
    refine div_le_one_of_le₀ (Nat.cast_le.mpr ?_) (Nat.cast_nonneg _)
    omega

end Exact

end Shelfmark.Similarity
