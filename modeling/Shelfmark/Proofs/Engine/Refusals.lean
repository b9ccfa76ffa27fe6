import Shelfmark.Proofs.Engine.Answers
import Shelfmark.Proofs.Query.Dropping

/-!
# Queries that are refused

- A query is read unless one of its patterns is refused otherwise than as malformed, and a malformed pattern counts as a
  blank (`reads_unless_refused`);
- no other step of a search fails for a pattern (`NoPattern`), so a search fails for one exactly if the query holds one
  that is refused (`search_fails_of_refused`).
-/

namespace Shelfmark

/-- A step does not fail for a pattern. -/
def NoPattern {β : Type} (x : Except Fault β) : Prop := ∀ r, x ≠ .error (.pattern r)

section NoPattern

variable {β γ : Type} {x : Except Fault β} {f : β → Except Fault γ}

theorem noPattern_ok (b : β) : NoPattern (.ok b) := by simp [NoPattern]

theorem noPattern_bind (hx : NoPattern x) (hf : ∀ b, NoPattern (f b)) : NoPattern (x >>= f) := by
  intro r h
  rcases bind_eq_error.mp h with h | ⟨b, _, h⟩
  · exact hx r h
  · exact hf b r h

theorem noPattern_map (hx : NoPattern x) (g : β → γ) : NoPattern (x.map g) :=
  fun r h => hx r (map_eq_error.mp h)

/-- Conditions looked at one after the other fail as one of them does. -/
theorem noPattern_allM : ∀ {cs : List (Except Fault Bool)}, (∀ c ∈ cs, NoPattern c) → NoPattern (cs.allM id)
  | [], _ => noPattern_ok true
  | c :: cs, h => by
    obtain ⟨hc, hcs⟩ := List.forall_mem_cons.mp h
    refine noPattern_bind hc fun k => ?_
    cases k with
    | false => exact noPattern_ok false
    | true => exact noPattern_allM hcs

theorem noPattern_anyM {k : β → Except Fault Bool} : ∀ {vs : List β}, (∀ v ∈ vs, NoPattern (k v)) →
    NoPattern (vs.anyM k)
  | [], _ => noPattern_ok false
  | v :: vs, h => by
    obtain ⟨hv, hvs⟩ := List.forall_mem_cons.mp h
    refine noPattern_bind hv fun found => ?_
    cases found with
    | false => exact noPattern_anyM hvs
    | true => exact noPattern_ok true

/-! ## The parts of a bookmark -/

theorem noPattern_display (room : Nat) (v : Json) : NoPattern (v.display room) := by
  intro r h
  rcases Json.checkBounds_error v (map_eq_error.mp h) with h | h <;> cases h

theorem noPattern_fieldOf (v : Json) (key : String) : NoPattern (Bookmark.fieldOf v key) := by
  unfold Bookmark.fieldOf
  split <;> simp [NoPattern]

theorem noPattern_repoName (b : Bookmark) : NoPattern b.repoName := by
  refine noPattern_bind (noPattern_fieldOf _ _) fun _ => noPattern_bind (noPattern_fieldOf _ _) fun _ => ?_
  split
  · exact noPattern_bind (noPattern_display _ _) fun _ => noPattern_bind (noPattern_display _ _) fun _ => noPattern_ok _
  · exact noPattern_ok _

theorem noPattern_playlist (b : Bookmark) : NoPattern b.playlist := by
  refine noPattern_bind (noPattern_fieldOf _ _) fun _ => ?_
  split
  · exact noPattern_display _ _
  · exact noPattern_ok _

theorem noPattern_hasImage (b : Bookmark) : NoPattern b.hasImage := by
  refine noPattern_anyM fun v hv => noPattern_map ?_ _
  simp only [Bookmark.pictures, List.mem_cons, List.not_mem_nil, or_false] at hv
  rcases hv with rfl | rfl | rfl <;> exact noPattern_fieldOf _ _

/-! ## The steps of a search -/

theorem noPattern_daysBefore (t : Timestamp) (days : Int) : NoPattern (t.daysBefore days) := by
  refine noPattern_bind ?_ fun _ => ?_
  · unfold checkDays
    split <;> simp [NoPattern]
  · unfold Timestamp.shifted
    split <;> simp [NoPattern]

theorem noPattern_keepWhere {p : Bookmark → Except Fault Bool} (hp : ∀ b, NoPattern (p b)) :
    ∀ bs, NoPattern (keepWhere p bs)
  | [] => noPattern_ok _
  | b :: rest => noPattern_bind (hp b) fun _ => noPattern_bind (noPattern_keepWhere hp rest) fun _ => noPattern_ok _

end NoPattern

namespace Engine

open Query Search

variable {α : Type} {w : State α} {query : String} {active : Option ActiveFilters} {options : Option Options}
  {bs : List Bookmark} {o : Options} {r : Pattern.Refusal} {host : Host}

theorem noPattern_textFound {text : Except Fault String} (h : NoPattern text) (filter : Option String) :
    NoPattern (SpecialFilters.textFound filter text) := by
  unfold SpecialFilters.textFound
  split
  · split
    · exact noPattern_ok _
    · exact noPattern_map h _
  · exact noPattern_ok _

theorem noPattern_answerFound {answer : Except Fault Bool} (h : NoPattern answer) (filter : Option Bool) :
    NoPattern (SpecialFilters.answerFound filter answer) := by
  cases filter with
  | none => exact noPattern_ok _
  | some wanted => exact noPattern_map h _

/-- No condition of a special filter fails for a pattern. -/
theorem noPattern_conditions {limit : Except Fault Timestamp} (hlimit : NoPattern limit) (f : SpecialFilters)
    (b : Bookmark) : ∀ c ∈ f.conditions limit b, NoPattern c := by
  simp only [SpecialFilters.conditions, List.forall_mem_cons]
  refine ⟨noPattern_ok _, ?_, noPattern_ok _, noPattern_textFound (noPattern_repoName b) _, noPattern_ok _,
    noPattern_answerFound (noPattern_hasImage b) _, noPattern_textFound (noPattern_playlist b) _,
    fun _ hc => absurd hc List.not_mem_nil⟩
  split
  · exact noPattern_map hlimit _
  · exact noPattern_ok _

theorem noPattern_candidates (active : Option ActiveFilters) (special : SpecialFilters) (now : Timestamp)
    (staleDays : Int) (bs : List Bookmark) : NoPattern (candidates active special now staleDays bs) := by
  have hlimit := noPattern_daysBefore now staleDays
  have hspecial : ∀ bs, NoPattern (if special.isEmpty = true then pure bs else special.apply now staleDays bs) := by
    intro bs
    split
    · exact noPattern_ok _
    · exact noPattern_keepWhere (fun b => noPattern_allM (noPattern_conditions hlimit special b)) bs
  cases active with
  | none => exact hspecial bs
  | some f =>
    refine noPattern_bind (noPattern_keepWhere (fun b => ?_) bs) hspecial
    unfold ActiveFilters.keeps
    split
    · split
      · exact noPattern_map hlimit _
      · exact noPattern_ok _
    · exact noPattern_ok _

theorem noPattern_facets (now : Timestamp) (bs : List Bookmark) : NoPattern (Facets.of now bs) := by
  have hmidnight : ∀ t, NoPattern (Periods.midnight t) := by
    intro t
    cases t <;> simp [NoPattern, Periods.midnight]
  refine noPattern_map ?_ _
  refine noPattern_bind (noPattern_daysBefore now 7) fun _ => ?_
  refine noPattern_bind (noPattern_daysBefore now 14) fun _ => ?_
  refine noPattern_bind (noPattern_daysBefore now 90) fun _ => ?_
  refine noPattern_bind (noPattern_daysBefore now 180) fun _ => ?_
  exact noPattern_bind (hmidnight _) fun _ => noPattern_bind (hmidnight _) fun _ => noPattern_ok _

theorem noPattern_answerOf (o : Options) (now : Timestamp) (hits : List Hit) (degraded : Bool)
    (parsed : Option (SpecialFilters × TextQuery)) : NoPattern (answerOf o now hits degraded parsed) := by
  unfold answerOf
  dsimp only
  split
  · exact noPattern_bind (noPattern_map (noPattern_facets _ _) _) fun _ => noPattern_ok _
  · exact noPattern_ok _

theorem noPattern_answerRead (w : State α) (bs : List Bookmark) (o : Options)
    (parsed : Option (SpecialFilters × TextQuery)) : NoPattern (answerRead w bs o parsed) := by
  exact noPattern_bind (noPattern_candidates _ _ _ _ _) fun _ => noPattern_answerOf _ _ _ _ _

theorem noPattern_options (w : State α) (options : Option Options) : NoPattern (w.options options) := by
  cases options with
  | some o => exact noPattern_ok _
  | none =>
    show NoPattern (Options.of _ _ _ _ _ _)
    unfold Options.of
    split
    · simp [NoPattern]
    · split
      · simp [NoPattern]
      · refine noPattern_bind (noPattern_ok _) fun _ => ?_
        dsimp only
        split <;> simp [NoPattern, pure, Except.pure]

/-! ## Reading a query -/

/-- The pieces of the free text of a query. -/
def piecesOf (query : String) : List (Piece PatternText) := pieces patternToken (SpecialFilters.parse query).2.toList

theorem readQuery_eq (host : Host) (query : String) : readQuery host query =
    match ofPieces host (piecesOf query) with
    | .ok text => .ok ((SpecialFilters.parse query).1, text)
    | .error r => .error (.pattern r) := by
  unfold readQuery piecesOf
  obtain ⟨special, rest⟩ := SpecialFilters.parse query
  rfl

theorem readQuery_eq_ok {special : SpecialFilters} {text : TextQuery} : readQuery host query = .ok (special, text) ↔
    special = (SpecialFilters.parse query).1 ∧ ofPieces host (piecesOf query) = .ok text := by
  rw [readQuery_eq]
  cases ofPieces host (piecesOf query) with
  | error r => simp
  | ok q => simp [eq_comm]

theorem readQuery_eq_error {e : Fault} : readQuery host query = .error e ↔
    ∃ r, e = .pattern r ∧ ofPieces host (piecesOf query) = .error r := by
  rw [readQuery_eq]
  cases ofPieces host (piecesOf query) with
  | error r => simp [eq_comm]
  | ok q => simp

/-- **A search fails for a pattern only if the query holds one that is refused.** -/
theorem refused_of_search (h : ((search query active options).run w).1 = .error (.pattern r)) :
    ofPieces w.host (piecesOf query) = .error r := by
  rw [run_search_eq] at h
  cases ho : w.options options with
  | error e =>
    have he : e = .pattern r := by simpa [ho] using h
    exact absurd (he ▸ ho) (noPattern_options w options r)
  | ok o =>
    rw [ho, Task.follow_ok] at h
    by_cases hready : w.Ready .getAll
    · obtain ⟨w', _, hrun⟩ := run_searchAmong w w.store.shelf.all query active o
      rw [run_searchWith hready, hrun] at h
      rcases bind_eq_error.mp h with h | ⟨bs, _, h⟩
      · exact absurd h (noPattern_candidates _ _ _ _ _ r)
      · rcases bind_eq_error.mp h with h | ⟨parsed, _, h⟩
        · unfold reading at h
          split at h
          · cases h
          · obtain ⟨r', hr, hpieces⟩ := readQuery_eq_error.mp (map_eq_error.mp h)
            cases hr
            exact hpieces
        · exact absurd h (noPattern_answerRead w bs o parsed r)
    · obtain ⟨e, _, hrun⟩ := run_store_not_ready hready
      simp only [searchWith, Task.run_bind, Task.run_attempt, allBookmarks, hrun, Task.follow_ok, Task.run_pure] at h
      cases h

/-- **A search that comes to reading the query fails if the query holds a pattern that is refused.** -/
theorem search_fails_of_refused (hready : w.Ready .getAll) (ho : w.options options = .ok o)
    (hactive : candidates active {} w.now w.settings.search.staleDays w.store.shelf.all = .ok bs)
    (hquery : Text.allBlank query = false) (h : ofPieces w.host (piecesOf query) = .error r) :
    ((search query active options).run w).1 = .error (.pattern r) := by
  obtain ⟨w', _, hrun⟩ := run_search hready ho query active
  have hread : reading w.host query = .error (.pattern r) := by
    rw [reading, hquery, if_neg Bool.false_ne_true, readQuery_eq_error.mpr ⟨r, rfl, h⟩]
    rfl
  rw [hrun, answerIn, hactive]
  show (reading w.host query >>= _) = _
  rw [hread]
  rfl

/-! ## What is promised of every query -/

/-- **A query is read unless one of its patterns is refused otherwise than as malformed; a malformed pattern is dropped
as if a blank stood there; and a search fails for a pattern only if the query holds one that is refused.** -/
theorem reads_unless_refused (host : Host) (query : String) :
    ((∃ parsed, readQuery host query = .ok parsed) ↔
      ∀ t ∈ tokensOf (piecesOf query), ∀ r, compiled host t = .error r → r = .malformed) ∧
    (∀ special text, readQuery host query = .ok (special, text) →
      special = (SpecialFilters.parse query).1 ∧
      text = { parsePlain (fill [' '] (piecesOf query)) with
        patterns := (tokensOf (piecesOf query)).filterMap fun t => (compiled host t).toOption } ∧
      ∀ before t after, piecesOf query = before ++ .token t :: after → compiled host t = .error .malformed →
        ofPieces host (before ++ .char ' ' :: after) = .ok text ∧
        (before.getLast? ≠ some (.char '/') →
          TextQuery.parse host (String.ofList (spell before ++ ' ' :: spell after)) = .ok text)) ∧
    ∀ (w : State α) (active : Option ActiveFilters) (options : Option Options) (r : Pattern.Refusal),
      ((search query active options).run w).1 = .error (.pattern r) →
        ∃ t ∈ tokensOf (piecesOf query), compiled w.host t = .error r ∧ r ≠ .malformed := by
  refine ⟨?_, fun special text hread => ?_, fun w active options r h => ofPieces_eq_error (refused_of_search h)⟩
  · rw [← exists_ofPieces_eq_ok]
    constructor
    · rintro ⟨⟨special, text⟩, hread⟩
      exact ⟨text, (readQuery_eq_ok.mp hread).2⟩
    · rintro ⟨text, htext⟩
      exact ⟨_, readQuery_eq_ok.mpr ⟨rfl, htext⟩⟩
  · obtain ⟨hspecial, htext⟩ := readQuery_eq_ok.mp hread
    refine ⟨hspecial, ofPieces_eq htext, fun before t after hps ht => ⟨?_, fun hlast => ?_⟩⟩
    · rw [← ofPieces_dropped ht, ← hps, htext]
    · rw [parse_dropped hps ht hlast, String.ofList_toList, parse_eq]
      exact htext

/-- The query that asks for a letter too many times is not read, though it is one pattern and a word. -/
theorem not_reads_oversized : (¬∃ parsed, readQuery {} "/a{99999999999}/ rust" = .ok parsed) ∧
    ∃ r, ((search "/a{99999999999}/ rust" none none).run ({} : State Unit)).1 = .error (.pattern r) := by
  have hunread : (ofPieces {} (piecesOf "/a{99999999999}/ rust")).toOption.isSome = false := by decide +kernel
  obtain ⟨r, hr⟩ : ∃ r, ofPieces {} (piecesOf "/a{99999999999}/ rust") = .error r := by
    cases h : ofPieces {} (piecesOf "/a{99999999999}/ rust") with
    | error r => exact ⟨r, rfl⟩
    | ok q =>
      rw [h] at hunread
      cases hunread
  refine ⟨?_, r, ?_⟩
  · rintro ⟨⟨special, text⟩, hread⟩
    rw [(readQuery_eq_ok.mp hread).2] at hr
    cases hr
  · obtain ⟨o, ho⟩ : ∃ o, ({} : State Unit).options none = .ok o := ⟨_, rfl⟩
    have hall : ({} : State Unit).store.shelf.all = [] := Shelf.all_of_pairwise List.Pairwise.nil
    have hactive : candidates none {} ({} : State Unit).now ({} : State Unit).settings.search.staleDays
        ({} : State Unit).store.shelf.all = .ok [] := by
      rw [hall]
      rfl
    exact search_fails_of_refused ⟨rfl, rfl⟩ ho hactive (by decide) hr

end Engine

end Shelfmark
