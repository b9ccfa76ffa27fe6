import Shelfmark.Proofs.Order.Stable
import Shelfmark.Proofs.Similarity.Duplicates
import Shelfmark.Proofs.Similarity.Pairs
import Shelfmark.Proofs.Similarity.Score
import Shelfmark.Similarity.Scan

/-!
# Pairs that are compared

A list of matches covers the likely pairs of some bookmarks (`Covers`) if every pair of different bookmarks that are
likely to be duplicates is matched, no other pair is, and no pair is matched twice, in the same order or the other one.

The pairs of one site and those of different sites are the pairs of all bookmarks, parted (`mem_sameDomainPairs`,
`mem_crossDomainPairs`), and none of them occurs twice.  As the score does not depend on the order of two bookmarks, the
matches of one site and those of different sites cover the likely pairs of their kind (`covers_sameDomain`,
`covers_crossDomain`).
-/

namespace Shelfmark.Similarity

/-! ## Pairs of members -/

section Pairs

variable {β : Type} {x y : β} {p : β → Bool}

theorem nodup_orderedPairs : ∀ {xs : List β}, xs.Nodup → (orderedPairs xs).Nodup
  | [], _ => List.nodup_nil
  | z :: rest, h => by
    obtain ⟨hz, hrest⟩ := List.nodup_cons.mp h
    refine List.nodup_append.mpr ⟨?_, nodup_orderedPairs hrest, ?_⟩
    · exact hrest.map fun _ _ he => (Prod.mk.inj he).2
    · rintro q hq q' hq' rfl
      obtain ⟨y, _, rfl⟩ := List.mem_map.mp hq
      exact hz (mem_of_mem_orderedPairs hq').1

/-- A pair of kept members is a pair of members that are kept. -/
theorem pair_sublist_filter {xs : List β} :
    [x, y].Sublist (xs.filter p) ↔ [x, y].Sublist xs ∧ p x = true ∧ p y = true := by
  constructor
  · intro h
    exact ⟨h.trans List.filter_sublist, (List.mem_filter.mp (h.subset (by simp))).2,
      (List.mem_filter.mp (h.subset (by simp))).2⟩
  · rintro ⟨h, hx, hy⟩
    simpa [hx, hy] using h.filter p

end Pairs

/-! ## Pairs of bookmarks -/

section Sites

variable {a b : Bookmark} {bs : List Bookmark}

/-- The groups that the bookmarks of one site form. -/
theorem mem_sameDomainPairs : (a, b) ∈ sameDomainPairs bs ↔ [a, b].Sublist bs ∧ SameSite a b := by
  simp only [sameDomainPairs, groupBy_eq, List.mem_flatMap, List.mem_map, Text.mem_distinct, List.mem_filterMap,
    mem_orderedPairs, SameSite]
  constructor
  · rintro ⟨_, ⟨k, _, rfl⟩, h⟩
    simp only [pair_sublist_filter, Bool.not_eq_true', String.isEmpty_eq_false_iff, beq_iff_eq, Option.some.injEq] at h
    obtain ⟨⟨hsub, ha, hb⟩, hak, hbk⟩ := h
    exact ⟨hsub, ha, hb, hak.trans hbk.symm⟩
  · rintro ⟨hsub, ha, hb, he⟩
    have hmem : a ∈ bs.filter fun c => !c.domain.isEmpty :=
      List.mem_filter.mpr ⟨hsub.subset (by simp), by simpa using ha⟩
    refine ⟨_, ⟨Text.lower a.domain, ⟨a, hmem, rfl⟩, rfl⟩, ?_⟩
    simp [pair_sublist_filter, hsub, ha, hb, he]

theorem nodup_sameDomainPairs (h : bs.Nodup) : (sameDomainPairs bs).Nodup := by
  have hclasses := classes_groupBy (fun b : Bookmark => some (Text.lower b.domain))
    (bs.filter fun b => !b.domain.isEmpty)
  refine List.nodup_flatMap.mpr ⟨fun g hg => ?_, ?_⟩
  · obtain ⟨⟨x, _, _, rfl⟩, _⟩ := (hclasses.mem_iff g).mp hg
    exact nodup_orderedPairs ((h.filter _).filter _)
  · exact hclasses.disjoint.imp fun hd q hq hq' => hd (mem_of_mem_orderedPairs hq).1 (mem_of_mem_orderedPairs hq').1

theorem mem_crossDomainPairs : (a, b) ∈ crossDomainPairs bs ↔ [a, b].Sublist bs ∧ ¬SameSite a b := by
  rw [crossDomainPairs, List.mem_filter, mem_orderedPairs, ← isSameDomain_iff, Bool.not_eq_true', Bool.not_eq_true]

theorem nodup_crossDomainPairs (h : bs.Nodup) : (crossDomainPairs bs).Nodup := (nodup_orderedPairs h).filter _

end Sites

/-! ## Matches -/

section Matches

variable {α : Type} {m m' : Match α} {ms ms' : List (Match α)} {a b : Bookmark} {bs : List Bookmark}
  {likely likely' apart : Bookmark → Bookmark → Prop} {t : α}

/-- The match is one of two bookmarks, in either order. -/
def Match.Joins (m : Match α) (a b : Bookmark) : Prop :=
  m.first = a ∧ m.second = b ∨ m.first = b ∧ m.second = a

theorem Match.Joins.symm (h : m.Joins m'.first m'.second) : m'.Joins m.first m.second := by
  rcases h with ⟨h₁, h₂⟩ | ⟨h₁, h₂⟩
  · exact Or.inl ⟨h₁.symm, h₂.symm⟩
  · exact Or.inr ⟨h₂.symm, h₁.symm⟩

/-- No two bookmarks are matched twice, in the same order or the other one. -/
def Once (ms : List (Match α)) : Prop := ms.Pairwise fun m m' => ¬m.Joins m'.first m'.second

theorem Once.sublist (h : Once ms) (hs : ms'.Sublist ms) : Once ms' := List.Pairwise.sublist hs h

theorem Once.perm (h : Once ms) (hp : ms.Perm ms') : Once ms' :=
  hp.pairwise h fun hne hjoins => hne hjoins.symm

section Covers

variable [Scalar α]

/-- The matches are those of the likely pairs of different bookmarks, each once. -/
structure Covers (likely : Bookmark → Bookmark → Prop) (bs : List Bookmark) (ms : List (Match α)) : Prop where
  sound : ∀ m ∈ ms, m.first ∈ bs ∧ m.second ∈ bs ∧ m.first.id ≠ m.second.id ∧ likely m.first m.second ∧
    m = matchOf (m.first, m.second)
  complete : ∀ a ∈ bs, ∀ b ∈ bs, a.id ≠ b.id → likely a b → ∃ m ∈ ms, m.Joins a b
  once : Once ms

/-- What covers pairs of two kinds that exclude each other has no pair twice. -/
theorem Covers.once_append (h : Covers likely bs ms) (h' : Covers likely' bs ms')
    (hsymm : ∀ {a b}, likely a b → likely b a) (hexcl : ∀ {a b}, likely a b → ¬likely' a b) : Once (ms ++ ms') := by
  refine List.pairwise_append.mpr ⟨h.once, h'.once, fun m hm m' hm' hjoins => ?_⟩
  have hlikely : likely m.first m.second := (h.sound m hm).2.2.2.1
  have hlikely' : likely' m'.first m'.second := (h'.sound m' hm').2.2.2.1
  rcases hjoins with ⟨h₁, h₂⟩ | ⟨h₁, h₂⟩
  · exact hexcl (h₁ ▸ h₂ ▸ hlikely) hlikely'
  · exact hexcl (hsymm (h₁ ▸ h₂ ▸ hlikely)) hlikely'

/-- Two bookmarks have no address in common and are at least as alike as a threshold. -/
def Reaches (t : α) (a b : Bookmark) : Prop := ¬(a.url ≠ "" ∧ a.url = b.url) ∧ Scalar.le t (score a b) = true

theorem Reaches.symm (h : Reaches t a b) : Reaches t b a := by
  refine ⟨fun ⟨hne, he⟩ => h.1 ⟨he ▸ hne, he.symm⟩, ?_⟩
  rw [score_comm]
  exact h.2

theorem mem_matchesAmong {ps : List (Bookmark × Bookmark)} :
    m ∈ matchesAmong t ps ↔ ∃ a b, (a, b) ∈ ps ∧ Reaches t a b ∧ matchOf (a, b) = m := by
  have haddress : ∀ {a b : Bookmark}, (!sameAddress a b) = true ↔ ¬(a.url ≠ "" ∧ a.url = b.url) := by
    intro a b
    rw [Bool.not_eq_true', ← Bool.not_eq_true, sameAddress, Bool.and_eq_true, Bool.not_eq_true',
      String.isEmpty_eq_false_iff, beq_iff_eq]
  simp only [matchesAmong, List.mem_filter, List.mem_map]
  constructor
  · rintro ⟨⟨⟨a, b⟩, ⟨hp, hurl⟩, rfl⟩, hle⟩
    exact ⟨a, b, hp, ⟨haddress.mp hurl, hle⟩, rfl⟩
  · rintro ⟨a, b, hp, ⟨hurl, hle⟩, rfl⟩
    exact ⟨⟨(a, b), ⟨hp, haddress.mpr hurl⟩, rfl⟩, hle⟩

/-- **The matches among the pairs of one kind cover the likely ones of that kind.** -/
theorem covers_matchesAmong (hids : (bs.map (·.id)).Nodup) {ps : List (Bookmark × Bookmark)} (hps : ps.Nodup)
    (hmem : ∀ a b, (a, b) ∈ ps ↔ [a, b].Sublist bs ∧ apart a b) (hsymm : ∀ {a b}, apart a b → apart b a) (t : α) :
    Covers (fun a b => apart a b ∧ Reaches t a b) bs (matchesAmong t ps) := by
  have hbs : bs.Nodup := hids.of_map _
  refine ⟨fun m hm => ?_, fun a ha b hb hne ⟨hapart, hreach⟩ => ?_, ?_⟩
  · obtain ⟨a, b, hp, hreach, rfl⟩ := mem_matchesAmong.mp hm
    obtain ⟨hsub, hapart⟩ := (hmem a b).mp hp
    have hne : a.id ≠ b.id := by simpa using hids.sublist (hsub.map (·.id))
    have ha : a ∈ bs := hsub.subset (by simp)
    have hb : b ∈ bs := hsub.subset (by simp)
    exact ⟨ha, hb, hne, ⟨hapart, hreach⟩, rfl⟩
  · -- the pair is compared in the order in which its bookmarks stand in the list
    rcases pair_sublist_or (fun he => hne (congrArg _ he)) ha hb with hsub | hsub
    · exact ⟨_, mem_matchesAmong.mpr ⟨a, b, (hmem a b).mpr ⟨hsub, hapart⟩, hreach, rfl⟩, Or.inl ⟨rfl, rfl⟩⟩
    · exact ⟨_, mem_matchesAmong.mpr ⟨b, a, (hmem b a).mpr ⟨hsub, hsymm hapart⟩, hreach.symm, rfl⟩, Or.inr ⟨rfl, rfl⟩⟩
  · have hpairs : ps.Pairwise fun p q => ¬(matchOf p : Match α).Joins q.1 q.2 := by
      refine hps.imp_of_mem fun {p q} hp hq hne hjoins => ?_
      rcases hjoins with ⟨h₁, h₂⟩ | ⟨h₁, h₂⟩
      · exact hne (Prod.ext h₁ h₂)
      · have hswap : p = (q.2, q.1) := Prod.ext h₁ h₂
        rw [hswap] at hp
        exact not_pair_sublist hbs ((hmem _ _).mp hp).1 ((hmem _ _).mp hq).1
    exact (List.pairwise_map.mpr (hpairs.filter _)).filter _

/-! ## Sites -/

/-- **The matches of one site cover the likely pairs of one site.** -/
theorem covers_sameDomain (hids : (bs.map (·.id)).Nodup) (t : α) :
    Covers (fun a b => SameSite a b ∧ Reaches t a b) bs (matchesAmong t (sameDomainPairs bs)) :=
  covers_matchesAmong hids (nodup_sameDomainPairs (hids.of_map _)) (fun _ _ => mem_sameDomainPairs) SameSite.symm t

/-- **The matches of different sites cover the likely pairs of different sites.** -/
theorem covers_crossDomain (hids : (bs.map (·.id)).Nodup) (t : α) :
    Covers (fun a b => ¬SameSite a b ∧ Reaches t a b) bs (matchesAmong t (crossDomainPairs bs)) :=
  covers_matchesAmong hids (nodup_crossDomainPairs (hids.of_map _)) (fun _ _ => mem_crossDomainPairs)
    (fun hapart hsame => hapart hsame.symm) t

end Covers

end Matches

end Shelfmark.Similarity
