import Mathlib.Data.String.Basic
import Shelfmark.Proofs.Order.Stable
import Shelfmark.Search.Hit

/-!
# Sorted hits

Every order of hits is total and transitive where the scores are whole numbers, as those of a search are, so that hits
are sorted stably (`stablySorted_sortHits`).
-/

namespace Shelfmark.Search

variable {a b c : Hit} {hits : List Hit}

/-- The score is a whole number. -/
def Hit.IsWhole (h : Hit) : Prop := ∃ n, h.score = .int n

/-- The score, if it is a whole number. -/
def Hit.wholeScore (h : Hit) : Int :=
  match h.score with
  | .int n => n
  | .real _ => 0

theorem lt_score_eq (ha : a.IsWhole) (hb : b.IsWhole) : a.score.lt b.score = decide (a.wholeScore < b.wholeScore) := by
  obtain ⟨m, ha⟩ := ha
  obtain ⟨n, hb⟩ := hb
  simp [Hit.wholeScore, ha, hb, Number.lt, Number.toJson, Json.quotient?]

namespace SortKey

/-- The order as it is among hits with whole scores. -/
def wholeLe (key : SortKey) (a b : Hit) : Bool :=
  match key with
  | relevance => decide (b.wholeScore < a.wholeScore ∨ b.wholeScore = a.wholeScore ∧
      b.bookmark.dateAdded.secondsOrder ≤ a.bookmark.dateAdded.secondsOrder)
  | key => key.le a b

theorem le_eq_wholeLe (key : SortKey) (ha : a.IsWhole) (hb : b.IsWhole) : key.le a b = key.wholeLe a b := by
  cases key with
  | relevance =>
    rw [Bool.eq_iff_iff]
    simp only [le, wholeLe, lt_score_eq ha hb, lt_score_eq hb ha, Bool.or_eq_true, Bool.and_eq_true, Bool.not_eq_true',
      decide_eq_true_eq, decide_eq_false_iff_not]
    omega
  | dateDesc | dateAsc | titleAsc | titleDesc | domainAsc => rfl

theorem wholeLe_trans (key : SortKey) (hab : key.wholeLe a b = true) (hbc : key.wholeLe b c = true) :
    key.wholeLe a c = true := by
  cases key <;> simp only [wholeLe, le, Timestamp.le, decide_eq_true_eq] at *
  case relevance | dateDesc | dateAsc => omega
  case titleAsc | domainAsc => exact le_trans hab hbc
  case titleDesc => exact le_trans hbc hab

theorem wholeLe_total (key : SortKey) (a b : Hit) : (key.wholeLe a b || key.wholeLe b a) = true := by
  cases key <;> simp only [wholeLe, le, Timestamp.le, Bool.or_eq_true, decide_eq_true_eq]
  case relevance | dateDesc | dateAsc => omega
  case titleAsc | titleDesc | domainAsc => exact le_total _ _

end SortKey

/-- **Hits with whole scores are sorted stably, in every order.** -/
theorem stablySorted_sortHits (key : SortKey) (h : ∀ x ∈ hits, x.IsWhole) :
    StablySorted key.le hits (sortHits key hits) :=
  stablySorted_mergeSort (s := key.wholeLe) (fun _ _ _ => key.wholeLe_trans) key.wholeLe_total
    fun a ha b hb => key.le_eq_wholeLe (h a ha) (h b hb)

end Shelfmark.Search
