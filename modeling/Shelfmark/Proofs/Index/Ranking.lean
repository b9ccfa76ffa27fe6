import Mathlib.Data.List.Basic
import Shelfmark.Proofs.Index.Changes
import Shelfmark.Proofs.Order.Doubles
import Shelfmark.Proofs.Order.Stable

/-!
# Searching an index

- A consistent index ranks a document if a word of a term stands at one of its places in a searched field
  (`mem_ranking`), and never twice (`nodup_ranking`);
- an index that holds some bookmarks ranks what looking at one bookmark after the other finds, with the same scores
  in the same order (`ranking_eq_scored`);
- a search answers with the ranking unless it has to add a weight beyond the doubles (`search_eq_ok`,
  `overflows_iff_hits`), whatever changes led to the index (`search_refines_scan`).
-/

namespace Shelfmark

/-- A word begins a word of a field. -/
def Bookmark.hits (b : Bookmark) (name word : String) : Bool :=
  (Text.indexWords (b.textOf name)).any fun w => Text.startsWith w word

/-- A document lists a word in a field. -/
def Document.hits (d : Document) (name word : String) : Bool := decide ((name, word) ∈ d.places)

namespace Index

variable {ix : Index} {d : Document} {b : Bookmark} {bs : List Bookmark} {id : String}
  {words fields terms asked : List String} {boost : Boost} {weight : String → Float}

/-! ## Hits and their weights -/

/-- Some word hits in some field. -/
def anyHit (fields words : List String) (hits : String → String → Bool) : Bool :=
  fields.any fun name => words.any (hits name)

/-- The weights of the hits, added field by field and word by word. -/
def sumHits (weight : String → Float) (fields words : List String) (hits : String → String → Bool) : Float :=
  fields.foldl (fun sum name =>
    words.foldl (fun sum word => if hits name word then sum + weight name else sum) sum) 0

/-- The weights of the fields as doubles. -/
def doubles (boost : Boost) (name : String) : Float := (boost.weight name).toFloat

theorem anyHit_iff {hits : String → String → Bool} :
    anyHit fields words hits = true ↔ ∃ name ∈ fields, ∃ word ∈ words, hits name word = true := by
  simp [anyHit]

section Congr

variable {hits hits' : String → String → Bool} (h : ∀ name ∈ fields, ∀ word ∈ words, hits name word = hits' name word)

include h

theorem anyHit_congr : anyHit fields words hits = anyHit fields words hits' := by
  rw [Bool.eq_iff_iff, anyHit_iff, anyHit_iff]
  refine exists_congr fun name => and_congr_right fun hn => exists_congr fun word => and_congr_right fun hw => ?_
  rw [h name hn word hw]

theorem sumHits_congr : sumHits weight fields words hits = sumHits weight fields words hits' :=
  List.foldl_ext _ _ _ fun _ name hn => List.foldl_ext _ _ _ fun _ word hw => by rw [h name hn word hw]

end Congr

/-! ## Credits -/

/-- In a consistent index a document is posted at its places only. -/
theorem mem_idsAt_iff (h : Consistent ix) (hd : d ∈ ix.documents) {place : String × String} :
    d.id ∈ ix.postings.idsAt place ↔ place ∈ d.places := by
  rw [h.posted]
  constructor
  · rintro ⟨e, he, hid, hp⟩
    rwa [← List.inj_on_of_nodup_map h.distinct he hd hid]
  · exact fun hp => ⟨d, hd, rfl, hp⟩

theorem decide_mem_idsAt (h : Consistent ix) (hd : d ∈ ix.documents) (name word : String) :
    decide (d.id ∈ ix.postings.idsAt (name, word)) = d.hits name word :=
  decide_eq_decide.mpr (mem_idsAt_iff h hd)

theorem any_credits (ix : Index) (id : String) : (ix.credits words fields boost).any (fun c => c.1 == id) =
    anyHit fields words fun name word => decide (id ∈ ix.postings.idsAt (name, word)) := by
  rw [Bool.eq_iff_iff]
  simp only [credits, anyHit, List.any_flatMap, List.any_map, List.any_eq_true, Function.comp_apply, beq_iff_eq,
    decide_eq_true_eq, exists_eq_right]

/-- Of different ids each is credited once. -/
theorem foldl_credit {ids : List String} (h : ids.Nodup) (id : String) (weight sum : Float) :
    (ids.map (·, weight)).foldl (fun sum credit => if credit.1 == id then sum + credit.2 else sum) sum =
      if decide (id ∈ ids) then sum + weight else sum := by
  induction ids generalizing sum with
  | nil => rfl
  | cons x rest ih =>
    obtain ⟨hx, hrest⟩ := List.nodup_cons.mp h
    rw [List.map_cons, List.foldl_cons, ih hrest]
    by_cases he : x = id
    · subst he
      simp [hx]
    · simp [he, Ne.symm he]

theorem total_credits (h : Postings.Tidy ix.postings) (id : String) :
    total (ix.credits words fields boost) id =
      sumHits (doubles boost) fields words fun name word => decide (id ∈ ix.postings.idsAt (name, word)) := by
  simp only [total, credits, sumHits, doubles, List.foldl_flatMap, foldl_credit (h.once _)]

/-! ## Found documents -/

/-- The documents that are found, with their scores, are listed in their order before they are sorted. -/
theorem totals_credits (h : Consistent ix) : totals ix.documents (ix.credits words fields boost) =
    (ix.documents.filter fun d => anyHit fields words d.hits).map fun d =>
      (d.id, sumHits (doubles boost) fields words d.hits) := by
  rw [← List.filterMap_eq_map, List.filterMap_filter, totals]
  refine List.filterMap_congr fun d hd => ?_
  simp only [any_credits, total_credits h.tidy, decide_mem_idsAt h hd, Function.comp_apply]

theorem ranking_eq_mergeSort (h : Consistent ix) (terms asked : List String) (boost : Boost) :
    ix.ranking terms asked boost =
      ((ix.documents.filter fun d => anyHit (ix.searchFields asked) (queryWords terms) d.hits).map fun d =>
        (d.id, sumHits (doubles (weights boost)) (ix.searchFields asked) (queryWords terms) d.hits)).mergeSort
          scoreOrder := by
  rw [ranking, totals_credits h]

/-- Any index ranks the ids of its documents that are posted under a word of a term in a searched field. -/
theorem mem_ranking_iff_posted (ix : Index) (terms asked : List String) (boost : Boost) (id : String) :
    id ∈ (ix.ranking terms asked boost).map Prod.fst ↔ id ∈ ix.documents.map (·.id) ∧
      anyHit (ix.searchFields asked) (queryWords terms)
        (fun name word => decide (id ∈ ix.postings.idsAt (name, word))) = true := by
  rw [ranking, ((List.mergeSort_perm _ _).map _).mem_iff]
  simp only [totals, List.mem_map, List.mem_filterMap, any_credits]
  constructor
  · rintro ⟨_, ⟨d, hd, hcredit⟩, rfl⟩
    split at hcredit <;> rename_i hany
    · cases hcredit
      exact ⟨⟨d, hd, rfl⟩, hany⟩
    · cases hcredit
  · rintro ⟨⟨d, hd, rfl⟩, hany⟩
    exact ⟨_, ⟨d, hd, if_pos hany⟩, rfl⟩

/-- **A consistent index ranks a document if a word of a term stands at one of its places in a searched field.** -/
theorem mem_ranking (h : Consistent ix) : id ∈ (ix.ranking terms asked boost).map Prod.fst ↔
    ∃ d ∈ ix.documents, d.id = id ∧ anyHit (ix.searchFields asked) (queryWords terms) d.hits = true := by
  rw [ranking_eq_mergeSort h, ((List.mergeSort_perm _ _).map _).mem_iff]
  simp only [List.map_map, List.mem_map, List.mem_filter, Function.comp_apply]
  constructor
  · rintro ⟨d, ⟨hd, ha⟩, hid⟩
    exact ⟨d, hd, hid, ha⟩
  · rintro ⟨d, hd, hid, ha⟩
    exact ⟨d, ⟨hd, ha⟩, hid⟩

/-- No document is ranked twice. -/
theorem nodup_ranking (h : Consistent ix) : ((ix.ranking terms asked boost).map Prod.fst).Nodup := by
  rw [ranking_eq_mergeSort h, ((List.mergeSort_perm _ _).map _).nodup_iff, List.map_map]
  exact h.distinct.sublist (List.filter_sublist.map _)

/-! ## Weights beyond the doubles -/

/-- A weight is that of the first entry for the field, and one without an entry. -/
theorem weight_eq_lookup (boost : Boost) (name : String) : boost.weight name = (boost.lookup name).getD (.int 1) := by
  unfold Boost.weight
  induction boost with
  | nil => rfl
  | cons e rest ih =>
    obtain ⟨key, w⟩ := e
    by_cases h : key = name
    · subst h
      simp
    · have hne : (name == key) = false := by simpa using fun he => h he.symm
      have hne' : (key == name) = false := by simpa using h
      simpa [List.find?_cons, List.lookup_cons, hne, hne'] using ih

theorem search_eq_ok (h : ix.overflows (queryWords terms) (ix.searchFields asked) (weights boost) = false) :
    ix.search terms asked boost = .ok (ix.ranking terms asked boost) := by
  rw [search, h]
  rfl

theorem search_fails (h : ix.overflows (queryWords terms) (ix.searchFields asked) (weights boost) = true) :
    ∃ e, ix.search terms asked boost = .error e := by
  rw [search, h]
  exact ⟨_, rfl⟩

/-- A consistent index adds the weight of a field if a document has one of the words there. -/
theorem overflows_iff (h : Consistent ix) : ix.overflows words fields boost = true ↔
    ∃ name ∈ fields, (boost.weight name).isBeyondDoubles = true ∧
      ∃ d ∈ ix.documents, ∃ word ∈ words, d.hits name word = true := by
  have hposted : ∀ name word, (!(ix.postings.idsAt (name, word)).isEmpty) = true ↔
      ∃ d ∈ ix.documents, d.hits name word = true := by
    intro name word
    simp only [Bool.not_eq_true', List.isEmpty_eq_false_iff_exists_mem]
    constructor
    · rintro ⟨id, hid⟩
      obtain ⟨d, hd, _, hp⟩ := (h.posted id _).mp hid
      exact ⟨d, hd, decide_eq_true hp⟩
    · rintro ⟨d, hd, hhit⟩
      exact ⟨d.id, (mem_idsAt_iff h hd).mpr (of_decide_eq_true hhit)⟩
  simp only [overflows, List.any_eq_true, Bool.and_eq_true, hposted]
  refine exists_congr fun name => and_congr_right fun _ => and_congr_right fun _ => ?_
  constructor
  · rintro ⟨word, hw, d, hd, hhit⟩
    exact ⟨d, hd, word, hw, hhit⟩
  · rintro ⟨d, hd, word, hw, hhit⟩
    exact ⟨word, hw, d, hd, hhit⟩

/-! ## Looking at one bookmark after the other -/

/-- What a search of some bookmarks finds: those with a hit, each with the sum of the weights of its hits. -/
def scored (bs : List Bookmark) (words fields : List String) (weight : String → Float) : List (String × Float) :=
  (bs.filter fun b => anyHit fields words b.hits).map fun b => (b.id, sumHits weight fields words b.hits)

theorem mem_queryWords {word : String} : word ∈ queryWords terms ↔ ∃ t ∈ terms, word ∈ Text.indexWords t := by
  simp [queryWords]

/-- Whatever is ranked for some terms is ranked for more of them. -/
theorem ranking_mono {terms' : List String} (h : ∀ t ∈ terms, t ∈ terms')
    (hid : id ∈ (ix.ranking terms asked boost).map Prod.fst) :
    id ∈ (ix.ranking terms' asked boost).map Prod.fst := by
  rw [mem_ranking_iff_posted, anyHit_iff] at hid ⊢
  obtain ⟨hdoc, name, hn, word, hw, hposted⟩ := hid
  obtain ⟨t, ht, hword⟩ := mem_queryWords.mp hw
  exact ⟨hdoc, name, hn, word, mem_queryWords.mpr ⟨t, h t ht, hword⟩, hposted⟩

/-- A weight that has to be added for some terms has to be added for more of them. -/
theorem overflows_mono {terms' : List String} (h : ∀ t ∈ terms, t ∈ terms')
    (ho : ix.overflows (queryWords terms) fields boost = true) :
    ix.overflows (queryWords terms') fields boost = true := by
  simp only [overflows, List.any_eq_true, Bool.and_eq_true] at ho ⊢
  obtain ⟨name, hn, hhuge, word, hw, hposted⟩ := ho
  obtain ⟨t, ht, hword⟩ := mem_queryWords.mp hw
  exact ⟨name, hn, hhuge, word, mem_queryWords.mpr ⟨t, h t ht, hword⟩, hposted⟩

theorem mem_searchFields {name : String} :
    name ∈ ix.searchFields asked ↔ name ∈ (if asked.isEmpty then ix.fields else asked) ∧ name ∈ ix.fields := by
  simp [searchFields]

/-- The document of a bookmark lists the beginnings of the words of its fields. -/
theorem hits_docOf {name word : String} (hn : name ∈ fields) (hw : word ≠ "") :
    (Document.docOf fields b).hits name word = b.hits name word := by
  rw [Bool.eq_iff_iff, Document.hits, decide_eq_true_eq, Document.mem_places_docOf]
  simp [Bookmark.hits, hn, hw]

theorem hits_docOf_searched {name word : String} (hn : name ∈ ix.searchFields asked) (hw : word ∈ queryWords terms) :
    (Document.docOf ix.fields b).hits name word = b.hits name word := by
  obtain ⟨_, _, hw⟩ := mem_queryWords.mp hw
  exact hits_docOf (mem_searchFields.mp hn).2 (Text.ne_empty_of_mem_indexWords hw)

/-- **An index ranks what looking at one bookmark after the other finds.** -/
theorem ranking_eq_scored (h : Holds ix bs) (terms asked : List String) (boost : Boost) :
    ix.ranking terms asked boost =
      (scored bs (queryWords terms) (ix.searchFields asked) (doubles (weights boost))).mergeSort scoreOrder := by
  have hany : ∀ b : Bookmark, anyHit (ix.searchFields asked) (queryWords terms) (Document.docOf ix.fields b).hits =
      anyHit (ix.searchFields asked) (queryWords terms) b.hits :=
    fun b => anyHit_congr fun _ hn _ hw => hits_docOf_searched hn hw
  have hsum : ∀ b : Bookmark, sumHits (doubles (weights boost)) (ix.searchFields asked) (queryWords terms)
      (Document.docOf ix.fields b).hits =
        sumHits (doubles (weights boost)) (ix.searchFields asked) (queryWords terms) b.hits :=
    fun b => sumHits_congr fun _ hn _ hw => hits_docOf_searched hn hw
  rw [ranking_eq_mergeSort h.consistent, h.documents, List.filter_map, List.map_map, scored]
  simp only [Function.comp_def, hany, hsum, Document.docOf_id]

/-- An index adds the weight of a field if a bookmark has one of the words there. -/
theorem overflows_iff_hits (h : Holds ix bs) :
    ix.overflows (queryWords terms) (ix.searchFields asked) boost = true ↔
      ∃ name ∈ ix.searchFields asked, (boost.weight name).isBeyondDoubles = true ∧
        ∃ b ∈ bs, ∃ word ∈ queryWords terms, b.hits name word = true := by
  rw [overflows_iff h.consistent, h.documents]
  refine exists_congr fun name => and_congr_right fun hn => and_congr_right fun _ => ?_
  simp only [List.mem_map, exists_exists_and_eq_and]
  refine exists_congr fun b => and_congr_right fun _ => exists_congr fun word => and_congr_right fun hw => ?_
  rw [hits_docOf_searched hn hw]

/-! ## The order of the hits -/

/-- Higher scores come first, and hits with one score stay as they were; a sum that is no number has no place in the
order. -/
theorem stablySorted_scores {rs : List (String × Float)} (h : ∀ r ∈ rs, r.2.isNaN = false) :
    StablySorted scoreOrder rs (rs.mergeSort scoreOrder) := by
  have hle : ∀ a ∈ rs, ∀ b ∈ rs, scoreOrder a b =
      Double.rankLe (Double.rank b.2.toModel.unpack) (Double.rank a.2.toModel.unpack) :=
    fun a ha b hb => Double.le_eq_rankLe (h b hb) (h a ha)
  refine stablySorted_mergeSort (fun a b c hab hbc => ?_) (fun a b => ?_) hle
  · exact Double.rankLe_trans hbc hab
  · exact Double.rankLe_total _ _

/-! ## Any run of changes -/

theorem nodup_live_ids (h : Holds ix bs) : (bs.map (·.id)).Nodup := by
  have hn := h.consistent.distinct
  rw [ids, h.documents, List.map_map] at hn
  exact hn

/-- A place that is kept lists the ids of some documents, and at least one. -/
theorem posted_ids (h : Consistent ix) {place : String × String} {posted : List String}
    (hp : ix.postings[place]? = some posted) : posted ≠ [] ∧ ∀ id ∈ posted, id ∈ ix.ids := by
  refine ⟨h.tidy.inhabited place posted hp, fun id hid => ?_⟩
  have hat : id ∈ ix.postings.idsAt place := by simpa [Postings.idsAt, hp] using hid
  obtain ⟨d, hd, rfl, _⟩ := (h.posted id place).mp hat
  exact List.mem_map_of_mem hd

/-- A bookmark is found if a word of a term begins a word of a searched field. -/
theorem mem_ranking_iff_word (h : Holds ix bs) : id ∈ (ix.ranking terms asked boost).map Prod.fst ↔
    ∃ b ∈ bs, b.id = id ∧ ∃ term ∈ terms, ∃ word ∈ Text.indexWords term, ∃ name ∈ ix.searchFields asked,
      ∃ w ∈ Text.indexWords (b.textOf name), Text.startsWith w word = true := by
  rw [ranking_eq_scored h, ((List.mergeSort_perm _ _).map _).mem_iff, scored, List.map_map]
  simp only [List.mem_map, List.mem_filter, Function.comp_apply, anyHit_iff, mem_queryWords, Bookmark.hits,
    List.any_eq_true]
  constructor
  · rintro ⟨b, ⟨hb, name, hn, word, ⟨term, ht, hword⟩, hhit⟩, hid⟩
    exact ⟨b, hb, hid, term, ht, word, hword, name, hn, hhit⟩
  · rintro ⟨b, hb, hid, term, ht, word, hword, name, hn, hhit⟩
    exact ⟨b, ⟨hb, name, hn, word, ⟨term, ht, hword⟩, hhit⟩, hid⟩

/-- The weights of the fields unless others are given: the ones that are documented. -/
def documentedBoost : Boost :=
  [("title", .int 3), ("category", .int 2), ("keywords", .int 2), ("description", .int 1), ("url", .int 1),
    ("domain", .int 1)]

/-- The weight that a search is asked to give a field: its entry, or one if it has none; if no weights are given, the
documented ones hold. -/
def askedWeight (boost : Boost) (name : String) : Number :=
  ((if boost = [] then documentedBoost else boost).lookup name).getD (.int 1)

theorem weight_weights (boost : Boost) (name : String) : (weights boost).weight name = askedWeight boost name := by
  rw [weight_eq_lookup, askedWeight, weights]
  cases boost <;> rfl

theorem doubles_weights (boost : Boost) : doubles (weights boost) = fun name => (askedWeight boost name).toFloat :=
  funext fun name => by rw [doubles, weight_weights]

/-- **After any run of changes a search finds what a scan of the live bookmarks finds**: a bookmark once if a word of
a term begins a word of a searched field, with the sum of the weights of its hits, the highest score first and the
older bookmark first where scores are equal.  It fails exactly if it has to add a weight beyond the doubles.  No version
that was replaced or removed is left anywhere in the index, and no place without ids. -/
theorem search_refines_scan (hf : ∀ name ∈ fields, name ∈ Bookmark.indexedFields) (cs : List Change)
    (terms asked : List String) (boost : Boost) :
    let ix := after fields cs
    let searched := (if asked.isEmpty then fields else asked).filter fields.contains
    let found := scored (live cs) (queryWords terms) searched fun name => (askedWeight boost name).toFloat
    let addsHuge := ∃ name ∈ searched, (askedWeight boost name).isBeyondDoubles = true ∧
      ∃ b ∈ live cs, ∃ word ∈ queryWords terms, b.hits name word = true
    (addsHuge → ∃ e, ix.search terms asked boost = .error e) ∧
      (¬addsHuge → ∃ hits, ix.search terms asked boost = .ok hits ∧ hits.Perm found ∧
        ((∀ r ∈ found, r.2.isNaN = false) → StablySorted scoreOrder found hits) ∧
        (∀ id, id ∈ hits.map Prod.fst ↔
          ∃ b ∈ live cs, b.id = id ∧ ∃ term ∈ terms, ∃ word ∈ Text.indexWords term, ∃ name ∈ searched,
            ∃ w ∈ Text.indexWords (b.textOf name), Text.startsWith w word = true) ∧
        (hits.map Prod.fst).Nodup) ∧
      ((live cs).map (·.id)).Nodup ∧
      ix.documents = (live cs).map (Document.docOf fields) ∧
      (∀ (place : String × String) (posted : List String), ix.postings[place]? = some posted →
        posted ≠ [] ∧ ∀ id ∈ posted, id ∈ (live cs).map (·.id)) ∧
      ∀ b, ix.add b = ix.update b := by
  intro ix searched found addsHuge
  have h : Holds ix (live cs) := after_holds hf cs
  have hfields : ix.fields = fields := fields_after fields cs
  have hsearched : ix.searchFields asked = searched := by rw [searchFields, hfields]
  have hranking : ix.ranking terms asked boost = found.mergeSort scoreOrder := by
    rw [ranking_eq_scored h, hsearched, doubles_weights]
  have hhuge : ix.overflows (queryWords terms) (ix.searchFields asked) (weights boost) = true ↔ addsHuge := by
    rw [overflows_iff_hits h, hsearched]
    simp only [addsHuge, weight_weights]
  have hids : ix.ids = (live cs).map (·.id) := by rw [ids, h.documents, List.map_map]; rfl
  refine ⟨fun ha => search_fails (hhuge.mpr ha), fun ha => ?_, nodup_live_ids h, ?_, fun place posted hp => ?_,
    add_eq_update ix⟩
  · have hsearch : ix.search terms asked boost = .ok (ix.ranking terms asked boost) :=
      search_eq_ok (Bool.eq_false_iff.mpr fun ho => ha (hhuge.mp ho))
    refine ⟨_, hsearch, ?_, fun hn => ?_, fun id => ?_, nodup_ranking h.consistent⟩
    · rw [hranking]
      exact List.mergeSort_perm _ _
    · rw [hranking]
      exact stablySorted_scores hn
    · rw [mem_ranking_iff_word h, hsearched]
  · rw [h.documents, hfields]
  · rw [← hids]
    exact posted_ids h.consistent hp

/-- A bookmark whose title was changed is found under the new title only, and a removed one is not found. -/
theorem search_refines_scan_sample :
    let cs := [.add { id := "a", title := "Java" }, .add { id := "b", title := "Lean" },
      .update { id := "a", title := "Programming in Lean" }, .remove "b"]
    (∀ name ∈ ["title"], name ∈ Bookmark.indexedFields) ∧
      (∃ hits, (after ["title"] cs).search ["PROG"] [] [] = .ok hits ∧ "a" ∈ hits.map Prod.fst) ∧
      (∃ hits, (after ["title"] cs).search ["java"] [] [] = .ok hits ∧ "a" ∉ hits.map Prod.fst) ∧
      ∃ hits, (after ["title"] cs).search ["lean"] [] [] = .ok hits ∧ "b" ∉ hits.map Prod.fst := by
  intro cs
  have hf : ∀ name ∈ ["title"], name ∈ Bookmark.indexedFields := by decide
  have hlive : live cs = [{ id := "a", title := "Programming in Lean" }] := by rfl
  have hsmall : (askedWeight [] "title").isBeyondDoubles = false := by decide +kernel
  have hfound : ∀ terms, ∃ hits, (after ["title"] cs).search terms [] [] = .ok hits ∧
      ∀ id, id ∈ hits.map Prod.fst ↔ ∃ b ∈ live cs, b.id = id ∧ ∃ term ∈ terms, ∃ word ∈ Text.indexWords term,
        ∃ name ∈ ["title"], ∃ w ∈ Text.indexWords (b.textOf name), Text.startsWith w word = true := by
    intro terms
    obtain ⟨_, hok, _⟩ := search_refines_scan hf cs terms [] []
    obtain ⟨hits, hsearch, _, _, hm, _⟩ := hok (by
      rintro ⟨name, hn, hhuge, _⟩
      obtain rfl : name = "title" := by simpa using hn
      rw [hsmall] at hhuge
      cases hhuge)
    exact ⟨hits, hsearch, hm⟩
  refine ⟨hf, ?_, ?_, ?_⟩
  · obtain ⟨hits, hsearch, hm⟩ := hfound ["PROG"]
    refine ⟨hits, hsearch, (hm "a").mpr ?_⟩
    rw [hlive]
    decide +kernel
  · obtain ⟨hits, hsearch, hm⟩ := hfound ["java"]
    refine ⟨hits, hsearch, fun h => ?_⟩
    rw [hm, hlive] at h
    revert h
    decide +kernel
  · obtain ⟨hits, hsearch, hm⟩ := hfound ["lean"]
    refine ⟨hits, hsearch, fun h => ?_⟩
    rw [hm, hlive] at h
    revert h
    decide +kernel

/-- A weight beyond the doubles fails a search that finds something in its field. -/
theorem search_huge_weight :
    let ix := after ["title"] [.add { id := "a", title := "rust" }]
    ∀ hits, ix.search ["rust"] [] [("title", .int (Nat.pow 10 400))] ≠ .ok hits := by
  intro ix hits
  have h : Holds ix [{ id := "a", title := "rust" }] := after_holds (by decide) _
  have hover : ix.overflows (queryWords ["rust"]) (ix.searchFields [])
      (weights [("title", .int (Nat.pow 10 400))]) = true :=
    (overflows_iff_hits h).mpr ⟨"title", by decide +kernel, by decide +kernel, _, List.mem_singleton.mpr rfl, "rust",
      by decide +kernel, by decide +kernel⟩
  obtain ⟨e, he⟩ := search_fails hover
  rw [he]
  simp

end Index

end Shelfmark
