import Mathlib.Data.List.Nodup
import Mathlib.Data.String.Basic
import Shelfmark.Proofs.Fallible
import Shelfmark.Proofs.Order.Scalars
import Shelfmark.Proofs.Text.Occurrences
import Shelfmark.Proofs.Time.Reading
import Shelfmark.Store.Records

/-!
# Stored records

The stamp of a stored record is the time that was written (`stamp_of`).  Replacing the records of a bookmark removes
those that it had and adds the new ones (`rows_replace`), and the records of the others stay (`own_replace_of_ne`).
They are read in an order of the store's own (`inReadOrder`, `of_replace`): the higher score first as they were found,
but of equal scores the lesser related id.  So records that were found with the highest score first are read as they
were found exactly if those with equal scores were found in the order of their related ids (`inReadOrder_eq_iff`).
-/

namespace Shelfmark

open Similarity Scalar

variable {α : Type}

/-! ## Stamps -/

/-- The text of a time does not spell a number, for the letter in it. -/
theorem isPlainNumeral_isoText (t : Timestamp) : isPlainNumeral (Text.trim t.isoText.toList) = false := by
  have hmem : 'T' ∈ t.isoText.toList := by
    rw [Timestamp.isoText, String.toList_ofList, Timestamp.isoChars_eq]
    simp
  have hall : (Text.trim t.isoText.toList).all
      (fun c => c.isDigit || c == '.' || c == '+' || c == '-' || c == 'e' || c == 'E') = false :=
    List.all_eq_false.mpr ⟨'T', Text.mem_trim hmem (by decide), by decide⟩
  rw [isPlainNumeral, hall, Bool.and_false]

/-- **The text of a time is read as a stamp with this time.** -/
theorem Stamp.ofText_isoText (t : Timestamp) : Stamp.ofText t.isoText = .ok (some t) := by
  simp only [ofText, isPlainNumeral_isoText, Bool.false_eq_true, if_false]
  exact Timestamp.ofJson_toJson t

/-- The time of a record is stored as it is. -/
theorem StoredRecord.stamp_of (id : String) (r : Record α) :
    (StoredRecord.of id r).stamp = .ok (some r.computedAt) := by
  simp only [StoredRecord.of, Stamp.ofText_isoText]

/-- A record is read as it was stored. -/
theorem StoredRecord.read_of (r : Record α) (now : Timestamp) : (StoredRecord.of r.bookmarkId r).read now = .ok r := by
  rw [read, stamp_of]
  rfl

/-- The two bookmarks that a stored record is about. -/
def StoredRecord.pair (r : StoredRecord α) : String × String := (r.bookmarkId, r.relatedId)

namespace RecordTable

variable {t : RecordTable α} {r : StoredRecord α} {rs : List (Record α)} {id : String}

/-! ## Changes -/

theorem rows_put_of_new (h : r.pair ∉ t.rows.map StoredRecord.pair) : (t.put r).rows = t.rows ++ [r] := by
  have hothers : ∀ q ∈ t.rows, (!(q.bookmarkId == r.bookmarkId && q.relatedId == r.relatedId)) = true := by
    intro q hq
    have hne : q.pair ≠ r.pair := fun he => h (List.mem_map.mpr ⟨q, hq, he⟩)
    simpa [StoredRecord.pair, Classical.or_iff_not_imp_left] using hne
  rw [put, List.filter_eq_self.mpr hothers]

theorem rows_foldl_put : ∀ {rs : List (StoredRecord α)} {t : RecordTable α}, (rs.map StoredRecord.pair).Nodup →
    List.Disjoint (t.rows.map StoredRecord.pair) (rs.map StoredRecord.pair) → (rs.foldl put t).rows = t.rows ++ rs
  | [], _, _, _ => by simp
  | r :: rs, t, hnodup, hd => by
    obtain ⟨hr, hrs⟩ := List.nodup_cons.mp hnodup
    have hnew : (t.put r).rows = t.rows ++ [r] := rows_put_of_new fun h => hd h List.mem_cons_self
    have hd' : List.Disjoint ((t.put r).rows.map StoredRecord.pair) (rs.map StoredRecord.pair) := by
      intro p hp hp'
      rw [hnew, List.map_append, List.mem_append] at hp
      rcases hp with hp | hp
      · exact hd hp (List.mem_cons_of_mem _ hp')
      · have he : p = r.pair := by simpa using hp
        exact hr (he ▸ hp')
    rw [List.foldl_cons, rows_foldl_put hrs hd', hnew, List.append_assoc]
    rfl

theorem pairs_of (id : String) (rs : List (Record α)) :
    (rs.map (StoredRecord.of id)).map StoredRecord.pair = (rs.map (·.relatedId)).map (id, ·) := by
  simp only [List.map_map]
  rfl

theorem nodup_pairs_of (id : String) (h : (rs.map (·.relatedId)).Nodup) :
    ((rs.map (StoredRecord.of id)).map StoredRecord.pair).Nodup := by
  rw [pairs_of]
  exact h.map fun _ _ he => (Prod.mk.inj he).2

/-- The records of other bookmarks are about other pairs than those of a bookmark. -/
theorem disjoint_pairs_of (t : RecordTable α) (id : String) (rs : List (Record α)) :
    List.Disjoint ((t.rows.filter fun r => r.bookmarkId != id).map StoredRecord.pair)
      ((rs.map (StoredRecord.of id)).map StoredRecord.pair) := by
  rw [pairs_of]
  intro p hp hp'
  obtain ⟨q, hq, rfl⟩ := List.mem_map.mp hp
  obtain ⟨_, _, he⟩ := List.mem_map.mp hp'
  have hother : q.bookmarkId ≠ id := by simpa using (List.mem_filter.mp hq).2
  exact hother (Prod.mk.inj he).1.symm

/-- **Replacing the records of a bookmark removes those that it had and adds the new ones.** -/
theorem rows_replace (t : RecordTable α) (id : String) (h : (rs.map (·.relatedId)).Nodup) :
    (t.replace id rs).rows = (t.rows.filter fun r => r.bookmarkId != id) ++ rs.map (StoredRecord.of id) :=
  rows_foldl_put (nodup_pairs_of id h) (disjoint_pairs_of t id rs)

theorem mem_replace (h : (rs.map (·.relatedId)).Nodup) : r ∈ (t.replace id rs).rows ↔
    r ∈ t.rows ∧ r.bookmarkId ≠ id ∨ ∃ q ∈ rs, StoredRecord.of id q = r := by
  rw [rows_replace t id h, List.mem_append, List.mem_filter, List.mem_map, bne_iff_ne]

/-- **After a replacement no two records are about the same bookmarks if none were before.** -/
theorem nodup_pairs_replace (ht : (t.rows.map StoredRecord.pair).Nodup) (h : (rs.map (·.relatedId)).Nodup) :
    ((t.replace id rs).rows.map StoredRecord.pair).Nodup := by
  rw [rows_replace t id h, List.map_append]
  exact (ht.sublist (List.filter_sublist.map _)).append (nodup_pairs_of id h) (disjoint_pairs_of t id rs)

/-- The records of a bookmark as they are stored. -/
def own (t : RecordTable α) (id : String) : List (StoredRecord α) := t.rows.filter fun r => r.bookmarkId == id

/-- **A bookmark has the records that replace those that it had.** -/
theorem own_replace_self (t : RecordTable α) (id : String) (h : (rs.map (·.relatedId)).Nodup) :
    (t.replace id rs).own id = rs.map (StoredRecord.of id) := by
  rw [own, rows_replace t id h, List.filter_append, List.filter_filter, List.filter_eq_nil_iff.mpr (by simp),
    List.nil_append]
  refine List.filter_eq_self.mpr fun q hq => ?_
  obtain ⟨r, _, rfl⟩ := List.mem_map.mp hq
  exact beq_self_eq_true id

/-- **Replacing the records of a bookmark leaves those of the others as they are.** -/
theorem own_replace_of_ne (t : RecordTable α) {id' : String} (hne : id' ≠ id) (h : (rs.map (·.relatedId)).Nodup) :
    (t.replace id rs).own id' = t.own id' := by
  have hnew : (rs.map (StoredRecord.of id)).filter (fun r => r.bookmarkId == id') = [] := by
    refine List.filter_eq_nil_iff.mpr fun q hq => ?_
    obtain ⟨r, _, rfl⟩ := List.mem_map.mp hq
    simpa [StoredRecord.of] using hne.symm
  have hold : ∀ r ∈ t.rows, (r.bookmarkId == id' && r.bookmarkId != id) = (r.bookmarkId == id') := by
    intro r _
    by_cases hr : r.bookmarkId = id'
    · simp [hr, hne]
    · simp [hr]
  rw [own, own, rows_replace t id h, List.filter_append, hnew, List.append_nil, List.filter_filter,
    List.filter_congr hold]

/-- Storing no records twice is storing none. -/
theorem replace_nil_twice (t : RecordTable α) (id : String) :
    (t.replace id []).replace id [] = t.replace id [] := by
  simp only [replace, removeOf, List.map_nil, List.foldl_nil, List.filter_filter, Bool.and_self]

theorem mem_forget : r ∈ (t.forget id).rows ↔ r ∈ t.rows ∧ r.bookmarkId ≠ id ∧ r.relatedId ≠ id := by
  simp [forget]

/-! ## The order of reading -/

section Reading

variable [Scalar α]

/-- The order in which records are read. -/
def readBefore (a b : Record α) : Bool :=
  lt b.score a.score || (le b.score a.score && a.relatedId ≤ b.relatedId)

/-- Records as they are read. -/
def inReadOrder (rs : List (Record α)) : List (Record α) := rs.mergeSort readBefore

theorem inReadOrder_perm (rs : List (Record α)) : (inReadOrder rs).Perm rs := List.mergeSort_perm rs readBefore

@[simp] theorem inReadOrder_eq_nil : inReadOrder rs = [] ↔ rs = [] := by
  rw [← List.length_eq_zero_iff, (inReadOrder_perm rs).length_eq, List.length_eq_zero_iff]

/-- **Records that replace those of a bookmark are read, in the order of reading.** -/
theorem of_replace (t : RecordTable α) (hids : ∀ r ∈ rs, r.bookmarkId = id) (h : (rs.map (·.relatedId)).Nodup)
    (now : Timestamp) : (t.replace id rs).of id now = .ok (inReadOrder rs) := by
  have hrows : (t.replace id rs).rows.filter (fun r => r.bookmarkId == id) = rs.map (StoredRecord.of id) :=
    own_replace_self t id h
  have hsort : (inReadOrder rs).map (StoredRecord.of id) = (rs.map (StoredRecord.of id)).mergeSort readOrder :=
    List.map_mergeSort fun _ _ _ _ => rfl
  rw [of, rowsOf, hrows, ← hsort]
  refine mapM_map_of_pure fun r hr => ?_
  have hid : r.bookmarkId = id := hids r ((inReadOrder_perm rs).mem_iff.mp hr)
  rw [← hid, StoredRecord.read_of]
  rfl

/-- Where no record is stored, none is read. -/
theorem of_eq_nil (h : ∀ r ∈ t.rows, r.bookmarkId ≠ id) (now : Timestamp) : t.of id now = .ok [] := by
  have hrows : t.rows.filter (fun r => r.bookmarkId == id) = [] := List.filter_eq_nil_iff.mpr (by simpa using h)
  rw [of, rowsOf, hrows, List.mergeSort_nil]
  rfl

/-- The records that are read for a bookmark are its own. -/
theorem bookmarkId_of_mem_of {now : Timestamp} (h : t.of id now = .ok rs) {r : Record α} (hr : r ∈ rs) :
    r.bookmarkId = id := by
  have hread : ∀ (q : StoredRecord α) (r : Record α), q.read now = .ok r → r.bookmarkId = q.bookmarkId := by
    intro q r hq
    obtain ⟨_, _, rfl⟩ := map_eq_ok.mp hq
    rfl
  have hids : rs.map (·.bookmarkId) = (t.rowsOf id).map (·.bookmarkId) := map_of_mapM hread h
  have hmem : r.bookmarkId ∈ (t.rowsOf id).map (·.bookmarkId) := hids ▸ List.mem_map.mpr ⟨r, hr, rfl⟩
  obtain ⟨q, hq, hid⟩ := List.mem_map.mp hmem
  have hfound := List.mem_filter.mp ((List.mergeSort_perm _ _).mem_iff.mp hq)
  exact hid ▸ beq_iff_eq.mp hfound.2

/-- Among numbers, the order of reading is that of the scores, and then that of the related ids. -/
theorem readBefore_eq [IsOrdered α] {a b : Record α} (ha : IsNumber a.score) (hb : IsNumber b.score) :
    readBefore a b = thenBy (descendingOrder (·.score)) (fun a b => a.relatedId ≤ b.relatedId) a b := by
  have hna : le a.score a.score = true := ha
  have hnb : le b.score b.score = true := hb
  simp only [readBefore, lt, thenBy, descendingOrder, hna, hnb, Bool.not_true, Bool.false_or]
  rcases IsOrdered.le_total ha hb with h | h
  · rw [h]
    simp
  · rw [h]
    simp

/-- **Records that were found with the highest score first are read as they were found exactly if those with equal
scores were found in the order of their related ids.** -/
theorem inReadOrder_eq_iff [IsOrdered α] (hnumbers : ∀ r ∈ rs, IsNumber r.score)
    (hsorted : rs.Pairwise fun a b => le b.score a.score = true) :
    inReadOrder rs = rs ↔ rs.Pairwise fun a b => le a.score b.score = true → a.relatedId ≤ b.relatedId := by
  constructor
  · intro h
    have hread : StablySorted readBefore rs (rs.mergeSort readBefore) :=
      stablySorted_mergeSort (thenBy_trans (fun _ _ _ => descendingOrder_trans) fun _ _ _ => by simpa using le_trans)
        (thenBy_total descendingOrder_total fun _ _ => by simpa using le_total _ _)
        fun a ha b hb => readBefore_eq (hnumbers a ha) (hnumbers b hb)
    have hpairs := hread.sorted
    rw [show rs.mergeSort readBefore = rs from h] at hpairs
    refine hpairs.imp fun {a b} hab htie => ?_
    simp only [readBefore, lt, htie, Bool.not_true, Bool.false_or, Bool.and_eq_true, decide_eq_true_eq] at hab
    exact hab.2
  · intro h
    refine List.mergeSort_of_pairwise (hsorted.imp₂ (fun a b hab hties => ?_) h)
    cases htie : le a.score b.score with
    | false => simp [readBefore, lt, htie]
    | true => simp [readBefore, hab, hties htie]

end Reading

end RecordTable

end Shelfmark
