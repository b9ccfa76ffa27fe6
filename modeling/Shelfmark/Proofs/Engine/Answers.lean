import Shelfmark.Engine.Searching
import Shelfmark.Proofs.Engine.Loading

/-!
# Answers of searches

- A search answers what `answerIn` says, a function of the bookmarks of the store, the clock, the settings, and the
  index that is at hand (`run_search`);
- it changes nothing unless it loads the index (`search_state`), and after that the same index is at hand
  (`access_again`), so that it does not matter for other searches (`agrees_search`).
-/

namespace Shelfmark.Engine

open Query Search

variable {α : Type} {w w' : State α} {bs : List Bookmark} {query : String} {active : Option ActiveFilters} {o : Options}
  {text : TextQuery}

/-! ## The index at hand -/

/-- The index at hand after it was loaded, or not. -/
def accessAfter (r : Except Fault Nat × State α) : IndexAccess :=
  match r with
  | (.ok i, w) => if (w.edition i).isBroken then .failing Index.isSearchable else .ready (w.edition i).index
  | (.error _, _) => .missing

/-- The index at hand for a search. -/
def State.access (w : State α) : IndexAccess := accessAfter (loadIndex.run w)

theorem run_indexForSearch (w : State α) : indexForSearch.run w = (.ok w.access, (loadIndex.run w).2) := by
  simp only [indexForSearch, Task.run_bind, Task.run_attempt, Task.follow_ok, State.access]
  obtain ⟨_ | _, _⟩ := loadIndex.run w <;> rfl

/-- **After the index was loaded, or could not be, the same index is at hand.** -/
theorem access_again (w : State α) : (loadIndex.run w).2.access = w.access := by
  have hl := loading w
  unfold State.access
  generalize loadIndex.run w = r at hl ⊢
  obtain ⟨_ | i, w'⟩ := r
  · obtain ⟨e, he⟩ := hl.fails rfl
    generalize loadIndex.run w' = r' at he
    obtain ⟨_, _⟩ := r'
    cases he
    rfl
  · rw [loadIndex_of_current (hl.current rfl)]

/-! ## The answer -/

/-- What a query asks for; nothing if it is blank. -/
def reading (host : Host) (query : String) : Except Fault (Option (SpecialFilters × TextQuery)) :=
  if Text.allBlank query then .ok none else (readQuery host query).map some

/-- The hits among the bookmarks that the filters keep, and whether the index let the search down. -/
def hitsWith (access : IndexAccess) (o : Options) (text : TextQuery) (bs : List Bookmark) : List Hit × Bool :=
  if text.isEmpty then (sortHits (o.sortBy.getD .dateDesc) (bs.map fun b => ⟨b, .int 0⟩), false)
  else
    let (found, degraded) := retrieve bs text access o.fields o.boost
    (sortHits (o.sortBy.getD .relevance) (rank found text), degraded)

/-- The answer of a search for what was read in the query, among the bookmarks that the other filters keep. -/
def answerRead (w : State α) (bs : List Bookmark) (o : Options) (parsed : Option (SpecialFilters × TextQuery)) :
    Except Fault Answer := do
  let bs ← candidates none ((parsed.map Prod.fst).getD {}) w.now w.settings.search.staleDays bs
  let (hits, degraded) := hitsWith w.access o ((parsed.map Prod.snd).getD {}) bs
  answerOf o w.now hits degraded parsed

/-- The answer of a search among some bookmarks. -/
def answerIn (w : State α) (bs : List Bookmark) (query : String) (active : Option ActiveFilters) (o : Options) :
    Except Fault Answer := do
  let bs ← candidates active {} w.now w.settings.search.staleDays bs
  let parsed ← reading w.host query
  answerRead w bs o parsed

theorem retrieve_of_no_regular {fields : List String} {boost : Boost} {access : IndexAccess}
    (h : text.regular.isEmpty = true) : retrieve bs text access fields boost = (scan bs text, false) := by
  simp [retrieve, h]

theorem run_textHits (ht : text.isEmpty = false) (w : State α) : ∃ w', (w' = w ∨ w' = (loadIndex.run w).2) ∧
    (textHits bs text o).run w = (.ok (hitsWith w.access o text bs), w') := by
  by_cases hr : text.regular.isEmpty = true
  · refine ⟨w, Or.inl rfl, ?_⟩
    simp only [textHits, hr, if_true, Task.run_bind, Task.run_pure, Task.follow_ok, hitsWith, ht, Bool.false_eq_true,
      if_false, retrieve_of_no_regular hr]
  · refine ⟨(loadIndex.run w).2, Or.inr rfl, ?_⟩
    simp only [textHits, hr, Bool.false_eq_true, if_false, Task.run_bind, run_indexForSearch, Task.follow_ok,
      Task.run_pure, hitsWith, ht]

/-- A search after the query was read. -/
def searchRead (now : Timestamp) (staleDays : Int) (bs : List Bookmark) (o : Options)
    (parsed : Option (SpecialFilters × TextQuery)) : Task α Answer := do
  let text := (parsed.map Prod.snd).getD {}
  let bs ← Task.ofExcept (candidates none ((parsed.map Prod.fst).getD {}) now staleDays bs)
  let (hits, degraded) ← if text.isEmpty then
      pure (sortHits (o.sortBy.getD .dateDesc) (bs.map fun b => ⟨b, .int 0⟩), false)
    else textHits bs text o
  Task.ofExcept (answerOf o now hits degraded parsed)

theorem run_searchRead (w : State α) (bs : List Bookmark) (o : Options) (parsed : Option (SpecialFilters × TextQuery)) :
    ∃ w', (w' = w ∨ w' = (loadIndex.run w).2) ∧
      (searchRead w.now w.settings.search.staleDays bs o parsed).run w = (answerRead w bs o parsed, w') := by
  simp only [searchRead, answerRead, Task.run_bind, Task.run_ofExcept]
  cases candidates none ((parsed.map Prod.fst).getD {}) w.now w.settings.search.staleDays bs with
  | error e => exact ⟨w, Or.inl rfl, rfl⟩
  | ok bs =>
    by_cases ht : ((parsed.map Prod.snd).getD {}).isEmpty = true
    · refine ⟨w, Or.inl rfl, ?_⟩
      simp only [Task.follow_ok, ht, if_true, hitsWith, Task.run_bind, Task.run_pure, Task.run_ofExcept]
      rfl
    · obtain ⟨w', hw', hrun⟩ := @run_textHits _ bs o _ (by simpa using ht) w
      refine ⟨w', hw', ?_⟩
      simp only [Task.follow_ok, ht, Bool.false_eq_true, if_false, Task.run_bind, hrun, Task.run_ofExcept]
      rfl

/-- **A search among some bookmarks answers what `answerIn` says, and may load the index.** -/
theorem run_searchAmong (w : State α) (bs : List Bookmark) (query : String) (active : Option ActiveFilters)
    (o : Options) : ∃ w', (w' = w ∨ w' = (loadIndex.run w).2) ∧
      (searchAmong bs query active o).run w = (answerIn w bs query active o, w') := by
  simp only [searchAmong, answerIn, Task.run_bind, Task.run_look, Task.follow_ok, Task.run_ofExcept]
  cases candidates active {} w.now w.settings.search.staleDays bs with
  | error e => exact ⟨w, Or.inl rfl, rfl⟩
  | ok bs =>
    simp only [Task.follow_ok, Task.run_bind, Task.run_look, reading]
    split
    · exact run_searchRead w bs o none
    · cases readQuery w.host query with
      | error e => exact ⟨w, Or.inl rfl, rfl⟩
      | ok parsed => exact run_searchRead w bs o (some parsed)

/-! ## Searches of the store -/

/-- The options of a search; without any those of the settings hold. -/
def State.options (w : State α) : Option Options → Except Fault Options
  | some o => .ok o
  | none => usualOptions w.settings

/-- A search with some options. -/
def searchWith (query : String) (active : Option ActiveFilters) (o : Options) : Task α Answer := do
  match ← allBookmarks.attempt with
  | .error e => return Answer.failure e.message
  | .ok bs => searchAmong bs query active o

theorem run_search_eq (w : State α) (query : String) (active : Option ActiveFilters) (options : Option Options) :
    (search query active options).run w = Task.follow (w.options options, w) (searchWith query active) := by
  simp only [search, Task.run_bind, Task.run_look, Task.run_ofExcept, Task.follow_ok]
  cases options with
  | some o => rfl
  | none => rfl

theorem run_searchWith (h : w.Ready .getAll) (query : String) (active : Option ActiveFilters) (o : Options) :
    (searchWith query active o).run w = (searchAmong w.store.shelf.all query active o).run w := by
  simp only [searchWith, Task.run_bind, Task.run_attempt, run_allBookmarks h, Task.follow_ok]

/-- **A search of a store that can be read answers what `answerIn` says, and may load the index.** -/
theorem run_search (h : w.Ready .getAll) {options : Option Options} (ho : w.options options = .ok o) (query : String)
    (active : Option ActiveFilters) : ∃ w', (w' = w ∨ w' = (loadIndex.run w).2) ∧
      (search query active options).run w = (answerIn w w.store.shelf.all query active o, w') := by
  obtain ⟨w', hw', hrun⟩ := run_searchAmong w w.store.shelf.all query active o
  exact ⟨w', hw', by rw [run_search_eq, ho, Task.follow_ok, run_searchWith h, hrun]⟩

/-- A search changes nothing unless it loads the index. -/
theorem search_state (w : State α) (query : String) (active : Option ActiveFilters) (options : Option Options) :
    ((search query active options).run w).2 = w ∨ ((search query active options).run w).2 = (loadIndex.run w).2 := by
  rw [run_search_eq]
  cases w.options options with
  | error e => exact Or.inl rfl
  | ok o =>
    by_cases h : w.Ready .getAll
    · obtain ⟨w', hw', hrun⟩ := run_searchAmong w w.store.shelf.all query active o
      rw [Task.follow_ok, run_searchWith h, hrun]
      exact hw'
    · obtain ⟨e, _, hrun⟩ := run_store_not_ready h
      left
      simp only [Task.follow_ok, searchWith, Task.run_bind, Task.run_attempt, allBookmarks, hrun, Task.run_pure]

/-! ## Searching again -/

/-- The states have the same bookmarks, and the same index is at hand. -/
structure Agrees (w w' : State α) : Prop extends SameShelf w w' where
  access : w'.access = w.access

theorem Agrees.refl (w : State α) : Agrees w w := ⟨.refl w, rfl⟩

theorem Agrees.trans {w'' : State α} (h : Agrees w w') (h' : Agrees w' w'') : Agrees w w'' :=
  ⟨h.toSameShelf.trans h'.toSameShelf, h'.access.trans h.access⟩

theorem agrees_loadIndex (w : State α) : Agrees w (loadIndex.run w).2 := ⟨loadIndex_sameShelf w, access_again w⟩

/-- **A search leaves the bookmarks and the index at hand as they were.** -/
theorem agrees_search (w : State α) (query : String) (active : Option ActiveFilters) (options : Option Options) :
    Agrees w ((search query active options).run w).2 := by
  rcases search_state w query active options with h | h
  · rw [h]
    exact .refl w
  · rw [h]
    exact agrees_loadIndex w

end Shelfmark.Engine
