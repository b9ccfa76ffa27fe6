import Shelfmark.Proofs.Engine.Lookups
import Shelfmark.Proofs.Similarity.Scan

/-!
# The scan of the store

With all matches of one site and all of different sites at hand, the scan takes the first of them up to its caps
(`sameDomainMatches_take`, `crossDomainMatches_take`, `scanMatches_eq`), and the best of what it took.

So a scan of bookmarks that fit into the sample finds at most as many matches as asked for, the most alike first and no
pair twice, and unless the caps cut it short these are the best of all (`scan_covers`).
-/

namespace Shelfmark.Engine

open Similarity Scalar

variable {α : Type} [Scalar α] {bs : List Bookmark} {o : ScanOptions} {t : α} {ms S C : List (Match α)}

/-! ## Caps -/

theorem sampleOf_of_le {size : Nat} (h : bs.length ≤ size) (seed : Option Int) : sampleOf size seed bs = bs :=
  if_neg (Nat.not_lt.mpr h)

theorem sameDomainMatches_take (bs : List Bookmark) (t : α) (cap : Nat) :
    sameDomainMatches bs t cap = (matchesAmong t (sameDomainPairs bs)).take cap := rfl

/-- While the cap is not reached, as many matches are added as are missing. -/
theorem crossDomainMatches_take (bs : List Bookmark) (t : α) {cap found : Nat} (h : found < cap) :
    crossDomainMatches bs t cap found =
      (matchesAmong (t + crossDomainPenalty) (crossDomainPairs bs)).take (cap - found) := by
  have hmissing : max 1 (cap - found) = cap - found := by omega
  rw [crossDomainMatches, hmissing]

/-- What a scan looks for: matches of one site, and others if there are too few of these. -/
def sought (o : ScanOptions) (S C : List (Match α)) : List (Match α) :=
  if o.includeCrossDomain && S.length < o.maxPairs then S ++ C else S

theorem maxPairs_lt_pairCap (o : ScanOptions) : o.maxPairs < o.pairCap := by
  have hpos := o.maxPairs_pos
  simp only [ScanOptions.pairCap, pairSurplus]
  omega

/-- **The scan takes the first of what it looks for, up to its cap.** -/
theorem scanMatches_eq (hsize : bs.length ≤ o.sampleSize) (t : α) : scanMatches t o bs =
    (sought o (matchesAmong t (sameDomainPairs bs))
      (matchesAmong (t + crossDomainPenalty) (crossDomainPairs bs))).take o.pairCap := by
  have hcap := maxPairs_lt_pairCap o
  obtain ⟨S, hS⟩ : ∃ S, matchesAmong t (sameDomainPairs bs) = S := ⟨_, rfl⟩
  rw [scanMatches, sampleOf_of_le hsize, sameDomainMatches_take, hS, sought]
  by_cases hfew : S.length < o.maxPairs
  · have hall : S.take o.pairCap = S := List.take_of_length_le (by omega)
    rw [hall]
    split
    · rw [crossDomainMatches_take bs t (by omega), List.take_append, hall]
    · exact hall.symm
  · have hmany : ¬(S.take o.pairCap).length < o.maxPairs := by
      rw [List.length_take]
      omega
    simp only [hfew, hmany, decide_false, Bool.and_false, Bool.false_eq_true, if_false]

/-! ## The best matches -/

/-- The more alike come first. -/
def byScore (m m' : Match α) : Bool := le m'.score m.score

/-- The scores of likely pairs are numbers. -/
theorem isNumber_of_mem_matchesAmong [IsOrdered α] {ps : List (Bookmark × Bookmark)} {m : Match α}
    (h : m ∈ matchesAmong t ps) : IsNumber m.score := by
  obtain ⟨a, b, _, hreach, rfl⟩ := mem_matchesAmong.mp h
  exact IsOrdered.right hreach.2

theorem rankMatches_best [IsOrdered α] (h : ∀ m ∈ ms, IsNumber m.score) (n : Nat) :
    ∃ ys, StablySorted byScore ms ys ∧ rankMatches ms n = ys.take n :=
  ⟨_, stablySorted_descending h, rfl⟩

theorem run_scanForDuplicates {w : State α} (threshold : Number → α) {options : Option ScanOptions}
    (ho : options = some o ∨ options = none ∧ usualScan w.settings.similarity = .ok o) (hw : w.Ready .getAll) :
    (scanForDuplicates threshold options).run w =
      (.ok (rankMatches (scanMatches (threshold o.minSimilarity) o w.store.shelf.all) o.maxPairs), w) := by
  have hread := run_allBookmarks hw
  rcases ho with rfl | ⟨rfl, husual⟩
  · simp only [scanForDuplicates, Task.run_bind, Task.run_look, Task.follow_ok, Task.run_ofExcept, Task.run_attempt,
      hread]
    rfl
  · simp only [scanForDuplicates, Task.run_bind, Task.run_look, Task.follow_ok, Task.run_ofExcept, husual,
      Task.run_attempt, hread]
    rfl

/-- **The scan considers every pair of bookmarks once.**  The matches of one site cover the pairs of one site that
reach the threshold, and those of different sites the other pairs that reach a higher one, each up to the cap.  What the
scan answers are at most as many matches as asked for, the most alike first and no pair twice; and where the cap does
not cut it short these are the best of all that it looks for. -/
theorem scan_covers [IsOrdered α] (o : ScanOptions) (threshold : Number → α) (hids : (bs.map (·.id)).Nodup)
    (hsize : bs.length ≤ o.sampleSize) :
    ∃ S C : List (Match α),
      Covers (fun a b => SameSite a b ∧ Reaches (threshold o.minSimilarity) a b) bs S ∧
      Covers (fun a b => ¬SameSite a b ∧ Reaches (threshold o.minSimilarity + ratio 1 10) a b) bs C ∧
      sameDomainMatches bs (threshold o.minSimilarity) o.pairCap = S.take (2 * o.maxPairs) ∧
      (∀ found < 2 * o.maxPairs,
        crossDomainMatches (sampleOf o.sampleSize o.seed bs) (threshold o.minSimilarity) o.pairCap found =
          C.take (2 * o.maxPairs - found)) ∧
      ∀ w : State α, w.Ready .getAll → w.store.shelf.all = bs → ∀ options,
        (options = some o ∨ options = none ∧ usualScan w.settings.similarity = .ok o) →
        ∃ rs, (scanForDuplicates threshold options).run w = (.ok rs, w) ∧ rs.length ≤ o.maxPairs ∧
          rs.Pairwise (fun m m' => byScore m m' = true) ∧ Once rs ∧
          (S.length + C.length < 2 * o.maxPairs →
            ∃ ys, StablySorted byScore (sought o S C) ys ∧ rs = ys.take o.maxPairs) := by
  have hsame := covers_sameDomain hids (threshold o.minSimilarity)
  have hcross := covers_crossDomain hids (threshold o.minSimilarity + crossDomainPenalty)
  refine ⟨_, _, hsame, hcross, rfl, fun found hfound => ?_, fun w hw hall options ho => ?_⟩
  · have hcap : found < o.pairCap := hfound
    rw [sampleOf_of_le hsize, crossDomainMatches_take bs _ hcap]
    rfl
  · have hrun := run_scanForDuplicates threshold ho hw
    rw [hall, scanMatches_eq hsize] at hrun
    generalize hS : matchesAmong (threshold o.minSimilarity) (sameDomainPairs bs) = S at hsame hrun ⊢
    generalize hC : matchesAmong (threshold o.minSimilarity + crossDomainPenalty) (crossDomainPairs bs) = C
      at hcross hrun ⊢
    have hnumbers : ∀ m ∈ S ++ C, IsNumber m.score := by
      intro m hm
      rcases List.mem_append.mp hm with hm | hm
      · exact isNumber_of_mem_matchesAmong (hS ▸ hm)
      · exact isNumber_of_mem_matchesAmong (hC ▸ hm)
    have honce : Once (S ++ C) :=
      hsame.once_append hcross (fun h => ⟨h.1.symm, h.2.symm⟩) fun h h' => h'.1 h.1
    have hsought : (sought o S C).Sublist (S ++ C) := by
      unfold sought
      split
      · exact List.Sublist.refl _
      · exact List.sublist_append_left _ _
    have htaken := (List.take_sublist o.pairCap (sought o S C)).trans hsought
    obtain ⟨ys, hys, hrank⟩ := rankMatches_best (fun m hm => hnumbers m (htaken.subset hm)) o.maxPairs
    rw [hrank] at hrun
    refine ⟨_, hrun, List.length_take_le _ _, hys.sorted.sublist (List.take_sublist _ _),
      ((honce.sublist htaken).perm hys.perm.symm).sublist (List.take_sublist _ _), fun hfew => ⟨ys, ?_, rfl⟩⟩
    have hcut : (sought o S C).take o.pairCap = sought o S C := by
      refine List.take_of_length_le ((hsought.length_le).trans ?_)
      rw [List.length_append]
      exact hfew.le
    rw [← hcut]
    exact hys

/-- Two bookmarks of one site with one title, and one without a site that has the title as well. -/
theorem scan_covers_sample :
    let a : Bookmark := { id := "a", title := "Lean", url := "https://x.org/1", domain := "x.org" }
    let b : Bookmark := { id := "b", title := "Lean", url := "https://x.org/2", domain := "X.org" }
    let c : Bookmark := { id := "c", title := "Lean", url := "about:lean" }
    let o : ScanOptions := { maxPairs := 2 }
    let w : State Float := { store := { shelf := ((({} : Shelf).put a).put b).put c } }
    w.store.shelf.all = [a, b, c] ∧ w.Ready .getAll ∧
      ∃ S C : List (Match Float), (∃ m ∈ S, m.Joins b a) ∧ (∃ m ∈ C, m.Joins c a) ∧ (∃ m ∈ C, m.Joins c b) ∧
        sameDomainMatches [a, b, c] (0.5 : Float) o.pairCap = S.take 4 ∧
        crossDomainMatches (sampleOf o.sampleSize o.seed [a, b, c]) (0.5 : Float) o.pairCap 1 = C.take 3 ∧
        ∃ rs, (scanForDuplicates Number.toFloat (some o)).run w = (.ok rs, w) ∧ rs.length ≤ 2 ∧ Once rs := by
  intro a b c o w
  have hall : w.store.shelf.all = [a, b, c] := Shelf.all_of_pairwise (by decide +kernel)
  have hw : w.Ready .getAll := ⟨rfl, rfl⟩
  have hids : ([a, b, c].map (·.id)).Nodup := by decide
  obtain ⟨S, C, hS, hC, hsame, hcross, hscan⟩ := scan_covers o Number.toFloat hids (by decide)
  have hab : SameSite b a ∧ Reaches (0.5 : Float) b a :=
    ⟨⟨by decide, by decide, by decide +kernel⟩, by decide +kernel, by decide +kernel⟩
  have hca : ¬SameSite c a ∧ Reaches ((0.5 : Float) + ratio 1 10) c a :=
    ⟨fun h => h.1 rfl, by decide +kernel, by decide +kernel⟩
  have hcb : ¬SameSite c b ∧ Reaches ((0.5 : Float) + ratio 1 10) c b :=
    ⟨fun h => h.1 rfl, by decide +kernel, by decide +kernel⟩
  obtain ⟨rs, hrun, hlength, _, honce, _⟩ := hscan w hw hall (some o) (Or.inl rfl)
  exact ⟨hall, hw, S, C, hS.complete b (by simp) a (by simp) (by decide) hab,
    hC.complete c (by simp) a (by simp) (by decide) hca, hC.complete c (by simp) b (by simp) (by decide) hcb, hsame,
    hcross 1 (by decide), rs, hrun, hlength, honce⟩

end Shelfmark.Engine
