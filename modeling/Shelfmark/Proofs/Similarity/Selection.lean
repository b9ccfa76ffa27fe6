import Mathlib.Algebra.Order.Field.Rat
import Mathlib.Data.List.FinRange
import Shelfmark.Proofs.Similarity.Records
import Shelfmark.Proofs.Text.Words

/-!
# Selected candidates

The sources of candidates are cut to their caps and put behind one another (`select_eq`), and of these bookmarks the
first one with each id is kept, in the order in which the ids appear (`FirstOfEach`, `firstOfEach_freshBookmarks`).  The
candidates that are alike enough are told apart by their places, also where one bookmark is listed twice, and the
records that are kept are those of the best places (`best_bestPlaces`).

So selection and ranking keep exactly the right candidates (`selection_exact`).
-/

namespace Shelfmark.Similarity

/-! ## The first of each -/

section FirstOfEach

variable {b c : Bookmark} {bs cs : List Bookmark}

/-- The place of the first bookmark with an id. -/
def firstPlace (bs : List Bookmark) (id : String) : Nat := bs.findIdx fun b => b.id == id

/-- Of some bookmarks the first one with each id, in the order in which the ids appear. -/
structure FirstOfEach (bs cs : List Bookmark) : Prop where
  mem_iff : ∀ c, c ∈ cs ↔ (bs.find? fun b => b.id == c.id) = some c
  inOrder : cs.Pairwise fun c d => firstPlace bs c.id < firstPlace bs d.id

/-- No id is left out. -/
theorem FirstOfEach.exists_of_mem (h : FirstOfEach bs cs) (hb : b ∈ bs) : ∃ c ∈ cs, c.id = b.id := by
  cases hfind : bs.find? fun d => d.id == b.id with
  | none => simpa using List.find?_eq_none.mp hfind b hb
  | some c =>
    have hid : c.id = b.id := by simpa using List.find?_some hfind
    exact ⟨c, (h.mem_iff c).mpr (hid ▸ hfind), hid⟩

theorem firstPlace_cons_of_ne {id : String} (h : b.id ≠ id) : firstPlace (b :: bs) id = firstPlace bs id + 1 := by
  have hb : (b.id == id) = false := beq_false_of_ne h
  simp [firstPlace, List.findIdx_cons, hb]

@[simp] theorem firstPlace_cons_self : firstPlace (b :: bs) b.id = 0 := by
  simp [firstPlace, List.findIdx_cons]

/-- A bookmark is kept if its id is new and no earlier bookmark has it. -/
theorem mem_freshBookmarks_iff : ∀ {seen : List String} {bs : List Bookmark},
    c ∈ freshBookmarks seen bs ↔ c.id ∉ seen ∧ (bs.find? fun b => b.id == c.id) = some c
  | _, [] => by simp [freshBookmarks]
  | seen, b :: rest => by
    by_cases hid : b.id = c.id
    · by_cases hb : b.id ∈ seen
      · have hc : c.id ∈ seen := hid ▸ hb
        simp [freshBookmarks, hb, hc, mem_freshBookmarks_iff]
      · have hc : c.id ∉ seen := hid ▸ hb
        simp [freshBookmarks, hc, hid, mem_freshBookmarks_iff, eq_comm]
    · have hne : c ≠ b := fun he => hid (he ▸ rfl)
      have hid' : ¬c.id = b.id := fun he => hid he.symm
      by_cases hb : b.id ∈ seen <;> simp [freshBookmarks, hb, hid, hid', hne, mem_freshBookmarks_iff]

theorem pairwise_freshBookmarks : ∀ (seen : List String) (bs : List Bookmark),
    (freshBookmarks seen bs).Pairwise fun c d => firstPlace bs c.id < firstPlace bs d.id
  | _, [] => List.Pairwise.nil
  | seen, b :: rest => by
    -- ids other than the first one stand one place further on
    have hrest : ∀ seen' : List String, b.id ∈ seen' →
        (freshBookmarks seen' rest).Pairwise fun c d => firstPlace (b :: rest) c.id < firstPlace (b :: rest) d.id := by
      intro seen' hb
      refine (pairwise_freshBookmarks seen' rest).imp_of_mem fun {c d} hc hd hlt => ?_
      have hbc : b.id ≠ c.id := fun he => (mem_freshBookmarks hc).2 (he ▸ hb)
      have hbd : b.id ≠ d.id := fun he => (mem_freshBookmarks hd).2 (he ▸ hb)
      rw [firstPlace_cons_of_ne hbc, firstPlace_cons_of_ne hbd]
      omega
    unfold freshBookmarks
    split
    · rename_i hb
      exact hrest seen (by simpa using hb)
    · refine List.pairwise_cons.mpr ⟨fun d hd => ?_, hrest _ List.mem_cons_self⟩
      have hbd : b.id ≠ d.id := fun he => (mem_freshBookmarks hd).2 (he ▸ List.mem_cons_self)
      rw [firstPlace_cons_self, firstPlace_cons_of_ne hbd]
      omega

/-- **The first bookmark with each id is kept.** -/
theorem firstOfEach_freshBookmarks (bs : List Bookmark) : FirstOfEach bs (freshBookmarks [] bs) :=
  ⟨fun c => by simp [mem_freshBookmarks_iff], pairwise_freshBookmarks [] bs⟩

end FirstOfEach

/-! ## Selection -/

section Selection

variable {a b target : Bookmark}

/-- Two bookmarks have a keyword in common, whatever the case of the letters. -/
def SharesKeyword (a b : Bookmark) : Prop := ∃ k ∈ a.keywords, ∃ l ∈ b.keywords, Text.lower k = Text.lower l

instance (a b : Bookmark) : Decidable (SharesKeyword a b) :=
  inferInstanceAs (Decidable (∃ k ∈ a.keywords, ∃ l ∈ b.keywords, Text.lower k = Text.lower l))

theorem shareKeyword_iff : shareKeyword a b = true ↔ SharesKeyword a b := by
  simp only [shareKeyword, keywordSet, SharesKeyword, List.any_eq_true, List.contains_iff_mem, Text.mem_distinct,
    List.mem_map]
  constructor
  · rintro ⟨_, ⟨k, hk, rfl⟩, l, hl, he⟩
    exact ⟨k, hk, l, hl, he.symm⟩
  · rintro ⟨k, hk, l, hl, he⟩
    exact ⟨_, ⟨k, hk, rfl⟩, l, hl, he.symm⟩

/-- The bookmarks that share a keyword with the target; none if it has no keywords. -/
def sharingKeyword (target : Bookmark) (bs : List Bookmark) : List Bookmark :=
  if target.keywords = [] then [] else bs.filter fun b => SharesKeyword target b

theorem filter_shareKeyword (target : Bookmark) (bs : List Bookmark) :
    bs.filter (shareKeyword target) = sharingKeyword target bs := by
  have hshare : ∀ b, shareKeyword target b = decide (SharesKeyword target b) := fun b => by
    rw [Bool.eq_iff_iff, shareKeyword_iff, decide_eq_true_iff]
  unfold sharingKeyword
  split
  · rename_i hnone
    exact List.filter_eq_nil_iff.mpr fun b _ => by simp [hshare, SharesKeyword, hnone]
  · exact List.filter_congr fun b _ => hshare b

theorem mem_sharingKeyword {bs : List Bookmark} : b ∈ sharingKeyword target bs ↔ b ∈ bs ∧ SharesKeyword target b := by
  rw [← filter_shareKeyword, List.mem_filter, shareKeyword_iff]

/-- **The first of each among the sources, cut to their caps, are selected.** -/
theorem firstOfEach_select (target : Bookmark) (sameDomain sameCategory corpus : List Bookmark) (caps : Caps) :
    FirstOfEach (takeOthers target caps.domain sameDomain ++ takeOthers target caps.category sameCategory ++
        takeOthers target caps.keyword (sharingKeyword target corpus))
      (select target sameDomain sameCategory corpus caps) := by
  rw [select, filter_shareKeyword]
  exact firstOfEach_freshBookmarks _

/-- No other bookmark is left out of a source that is no longer than its cap. -/
theorem mem_takeOthers_of_length_le {cap : Nat} {source : List Bookmark}
    (hlength : (source.filter fun b => b.id != target.id).length ≤ cap) (hb : b ∈ source) (hne : b.id ≠ target.id) :
    b ∈ takeOthers target cap source := by
  rw [takeOthers, Int.toNat_natCast, List.take_of_length_le hlength]
  exact List.mem_filter.mpr ⟨hb, bne_iff_ne.mpr hne⟩

end Selection

/-! ## Ranking -/

section Ranking

variable {α : Type} [Scalar α] {target : Bookmark} {bs : List Bookmark}

/-- The score of the bookmark at a place. -/
def scoreAt (α : Type) [Scalar α] (target : Bookmark) (bs : List Bookmark) (i : Fin bs.length) : α :=
  score target (bs.get i)

/-- The places of the bookmarks that are alike enough, in their order. -/
def likelyPlaces (α : Type) [Scalar α] (target : Bookmark) (bs : List Bookmark) : List (Fin bs.length) :=
  (List.finRange bs.length).filter fun i => Scalar.lt (Scalar.ratio 1 10) (scoreAt α target bs i)

/-- The best of these places. -/
def bestPlaces (α : Type) [Scalar α] (target : Bookmark) (bs : List Bookmark) (n : Nat) : List (Fin bs.length) :=
  (Scalar.descending (scoreAt α target bs) (likelyPlaces α target bs)).take n

theorem map_likelyPlaces : (likelyPlaces α target bs).map bs.get =
    bs.filter fun b => Scalar.lt (Scalar.ratio 1 10) (score target b : α) := by
  conv_rhs => rw [← List.map_get_finRange bs, List.filter_map]
  rfl

/-- **The records that are kept are those of the best places.** -/
theorem rankCandidates_eq_map (target : Bookmark) (bs : List Bookmark) (n : Nat) (now : Timestamp) :
    (rankCandidates target bs n now : List (Record α)) =
      (bestPlaces α target bs n).map fun i => recordOf target now (bs.get i) := by
  rw [rankCandidates_eq, best, upTo_of_nonneg (Int.natCast_nonneg n), Int.toNat_natCast, ← map_likelyPlaces,
    Scalar.descending_map, ← List.map_take, List.map_map]
  rfl

theorem best_bestPlaces [Scalar.IsOrdered α] (h : ∀ b ∈ bs, Scalar.IsNumber (score target b : α)) (n : Nat) :
    Scalar.Best (scoreAt α target bs) n (likelyPlaces α target bs) (bestPlaces α target bs n) :=
  Scalar.best_descending ((List.nodup_finRange _).filter _) (fun _ _ => h _ (List.get_mem _ _)) n

/-- **Selection and ranking keep exactly the right candidates.**  Of each source the first bookmarks other than the
target are looked at, as many as its cap, and of all these the first one with each id is selected, in order of
appearance.  So a source that is no longer than its cap, the target not counted, loses no id.  Of any candidates whose
scores are numbers, as exact scores always are, the records of the best ones are kept, as many as asked for: the highest
score first, equal scores as they stood, and none is left out for a lower score. -/
theorem selection_exact [Scalar.IsOrdered α] (target : Bookmark) (sameDomain sameCategory corpus : List Bookmark)
    (d c k : Nat) :
    let others := fun bs : List Bookmark => bs.filter fun b => b.id != target.id
    let sharing := sharingKeyword target corpus
    let cs := select target sameDomain sameCategory corpus ⟨d, c, k⟩
    FirstOfEach ((others sameDomain).take d ++ (others sameCategory).take c ++ (others sharing).take k) cs ∧
      (cs.map (·.id)).Nodup ∧ (∀ b ∈ cs, b.id ≠ target.id) ∧
      ((others sameDomain).length ≤ d → ∀ b ∈ sameDomain, b.id ≠ target.id → ∃ x ∈ cs, x.id = b.id) ∧
      ((others sameCategory).length ≤ c → ∀ b ∈ sameCategory, b.id ≠ target.id → ∃ x ∈ cs, x.id = b.id) ∧
      ((others sharing).length ≤ k →
        ∀ b ∈ corpus, SharesKeyword target b → b.id ≠ target.id → ∃ x ∈ cs, x.id = b.id) ∧
      ∀ (candidates : List Bookmark) (n : Nat) (now : Timestamp),
        (∀ b ∈ candidates, Scalar.IsNumber (score target b : α)) →
        ∃ ps : List (Fin candidates.length),
          (rankCandidates target candidates n now : List (Record α)) =
            ps.map (fun i => recordOf target now (candidates.get i)) ∧
          Scalar.Best (scoreAt α target candidates) n (likelyPlaces α target candidates) ps := by
  intro others sharing cs
  have hfirst := firstOfEach_select target sameDomain sameCategory corpus ⟨d, c, k⟩
  refine ⟨hfirst, nodup_ids_select .., fun b hb => (mem_select hb).2, fun hd b hb hne => ?_, fun hc b hb hne => ?_,
    fun hk b hb hshare hne => ?_, fun candidates n now hnumbers =>
      ⟨_, rankCandidates_eq_map target candidates n now, best_bestPlaces hnumbers n⟩⟩
  · refine hfirst.exists_of_mem (List.mem_append_left _ (List.mem_append_left _ ?_))
    exact mem_takeOthers_of_length_le hd hb hne
  · refine hfirst.exists_of_mem (List.mem_append_left _ (List.mem_append_right _ ?_))
    exact mem_takeOthers_of_length_le hc hb hne
  · refine hfirst.exists_of_mem (List.mem_append_right _ ?_)
    exact mem_takeOthers_of_length_le hk (mem_sharingKeyword.mpr ⟨hb, hshare⟩) hne

/-- Sources that are exactly at their caps without the target: one bookmark of the category has an id that was seen, and
another bookmark shares a keyword but for the case of its letters. -/
theorem selection_exact_sample :
    let t : Bookmark := { id := "t", title := "Lean", keywords := ["Proof"] }
    let a : Bookmark := { id := "a", title := "Lean" }
    let c : Bookmark := { id := "c", title := "Rust", keywords := ["PROOF"] }
    let cs := select t [t, a] [{ a with title := "Go" }] [c, t] ⟨1, 1, 1⟩
    (∃ x ∈ cs, x.id = "a") ∧ (∃ x ∈ cs, x.id = "c") ∧ cs.map (·.title) = ["Lean", "Rust"] ∧
      ∃ ps : List (Fin cs.length),
        (rankCandidates t cs 1 Timestamp.epoch : List (Record ℚ)) =
          ps.map (fun i => recordOf t Timestamp.epoch (cs.get i)) ∧
        ps.length = 1 ∧ ∀ i ∈ ps, 1 / 10 < scoreAt ℚ t cs i := by
  intro t a c cs
  obtain ⟨_, _, _, hdomain, _, hkeyword, hrank⟩ :=
    selection_exact (α := ℚ) t [t, a] [{ a with title := "Go" }] [c, t] 1 1 1
  obtain ⟨ps, hps, hbest⟩ := hrank cs 1 Timestamp.epoch fun b _ => Scalar.isNumber_exact _
  have hshares : SharesKeyword t c := ⟨"Proof", by simp [t], "PROOF", by simp [c], by decide +kernel⟩
  refine ⟨hdomain (by decide +kernel) a (by simp) (by decide), hkeyword (by decide +kernel) c (by simp) hshares
    (by decide), by decide +kernel, ps, hps, ?_, fun i hi => ?_⟩
  · rw [hbest.length]
    decide +kernel
  · simpa using (List.mem_filter.mp (hbest.subset i hi)).2

end Ranking

end Shelfmark.Similarity
