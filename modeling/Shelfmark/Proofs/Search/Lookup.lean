import Shelfmark.Proofs.Index.Ranking
import Shelfmark.Proofs.Index.Restoring
import Shelfmark.Proofs.Text.Occurrences
import Shelfmark.Search.Retrieval

/-!
# Looking terms up

- With an index a free text finds the bookmarks of a scan in which a word of a regular term begins a word of a
  searched field (`retrieve_ready`), or all bookmarks of the scan if the index could not know one of the terms or would
  have to add a weight beyond the doubles (`retrieve_overflowing`);
- what such a search may miss are bookmarks in which the regular terms only occur inside of words
  (`retrieve_by_index`).
-/

namespace Shelfmark.Search

open Query

variable {host : Host} {ix : Index} {b : Bookmark} {bs : List Bookmark} {q : TextQuery} {fields : List String}
  {boost : Boost} {term : String}

/-! ## Terms of a query -/

/-- The terms of a query are in lower case. -/
theorem lower_of_mem_withSign {sign : Sign} {terms : List (Sign × List Char)} (h : term ∈ withSign sign terms) :
    Text.lowerChars term.toList = term.toList := by
  obtain ⟨t, _, rfl⟩ := List.mem_map.mp h
  rw [String.toList_ofList, Text.lowerChars_lowerChars]

theorem lower_of_mem_regular {text : String} (hq : TextQuery.parse host text = .ok q) (ht : term ∈ q.regular) :
    Text.lowerChars term.toList = term.toList := by
  obtain ⟨patterns, _, h⟩ := bind_eq_ok.mp hq
  have hregular : q.regular = (parsePlain (fill [' '] (pieces patternToken text.toList))).regular := by
    rw [← Except.ok.inj h]
  rw [hregular, parsePlain] at ht
  exact lower_of_mem_withSign ht

/-! ## Words of bookmarks -/

/-- The words of the searchable text are those of the fields that an index covers by default. -/
theorem mem_indexWords_searchableText {w : String} : w ∈ Text.indexWords b.searchableText ↔
    ∃ name ∈ Bookmark.indexedFields, w ∈ Text.indexWords (b.textOf name) := by
  have hperm : [b.title, b.url, b.description, b.domain, b.category, b.keywordText].Perm
      [b.title, b.url, b.description, b.keywordText, b.category, b.domain] := by grind
  have htexts : Bookmark.indexedFields.map b.textOf =
      [b.title, b.url, b.description, b.keywordText, b.category, b.domain] := rfl
  rw [Bookmark.searchableText, Text.indexWords_intercalate, List.mem_flatMap]
  simp only [hperm.mem_iff, ← htexts, List.mem_map]
  constructor
  · rintro ⟨_, ⟨name, hn, rfl⟩, hw⟩
    exact ⟨name, hn, hw⟩
  · rintro ⟨name, hn, hw⟩
    exact ⟨_, ⟨name, hn, rfl⟩, hw⟩

/-! ## Lookups -/

/-- A word of one of some terms begins a word of one of some fields. -/
def matchesWord (terms searched : List String) (b : Bookmark) : Bool :=
  terms.any fun term => (Text.indexWords term).any fun word => searched.any fun name => b.hits name word

theorem matchesWord_iff {terms searched : List String} : matchesWord terms searched b = true ↔
    ∃ term ∈ terms, ∃ word ∈ Text.indexWords term, ∃ name ∈ searched, b.hits name word = true := by
  simp [matchesWord]

/-- The index holds the document of the bookmark as it is now. -/
def HoldsDocument (ix : Index) (b : Bookmark) : Prop := ∃ d ∈ ix.documents, Document.of ix.fields b = .ok d

/-- An index that holds the document of a bookmark ranks it by its words. -/
theorem mem_ranking_of_holdsDocument (h : Index.Consistent ix) (hb : HoldsDocument ix b) (terms : List String) :
    b.id ∈ (ix.ranking terms fields boost).map Prod.fst ↔ matchesWord terms (ix.searchFields fields) b = true := by
  obtain ⟨d, hd, hdoc⟩ := hb
  have hid : d.id = b.id := Index.id_of_document hdoc
  have hhits : Index.anyHit (ix.searchFields fields) (Index.queryWords terms) d.hits =
      Index.anyHit (ix.searchFields fields) (Index.queryWords terms) b.hits := by
    rw [Document.eq_docOf hdoc]
    exact Index.anyHit_congr fun _ hn _ hw => Index.hits_docOf_searched hn hw
  have hone : (∃ e ∈ ix.documents, e.id = b.id ∧
      Index.anyHit (ix.searchFields fields) (Index.queryWords terms) e.hits = true) ↔
      Index.anyHit (ix.searchFields fields) (Index.queryWords terms) d.hits = true := by
    constructor
    · rintro ⟨e, he, heid, ha⟩
      rwa [← List.inj_on_of_nodup_map h.distinct he hd (heid.trans hid.symm)]
    · exact fun ha => ⟨d, hd, hid, ha⟩
  rw [Index.mem_ranking h, hone, hhits, Index.anyHit_iff, matchesWord_iff]
  simp only [Index.mem_queryWords]
  constructor
  · rintro ⟨name, hn, word, ⟨term, ht, hw⟩, hit⟩
    exact ⟨term, ht, word, hw, name, hn, hit⟩
  · rintro ⟨term, ht, word, hw, name, hn, hit⟩
    exact ⟨name, hn, word, ⟨term, ht, hw⟩, hit⟩

/-- An index can only leave bookmarks out. -/
theorem retrieve_sublist_scan {access : IndexAccess} :
    (retrieve bs q access fields boost).1.Sublist (scan bs q) := by
  unfold retrieve
  split
  · exact List.Sublist.refl _
  · cases access with
    | missing | failing => exact List.Sublist.refl _
    | ready ix =>
      dsimp only
      split
      · split
        · exact List.filter_sublist.filter _
        · exact List.Sublist.refl _
      · exact List.Sublist.refl _

theorem isSearchable_iff : Index.isSearchable term = true ↔ Text.indexWords term ≠ [] := by
  simp [Index.isSearchable]

theorem retrieve_unsearchable (hr : q.regular ≠ []) (hs : ∃ term ∈ q.regular, Text.indexWords term = []) :
    retrieve bs q (.ready ix) fields boost = (scan bs q, false) := by
  have hall : ¬q.regular.all Index.isSearchable = true := by
    obtain ⟨term, ht, hw⟩ := hs
    rw [List.all_eq_true]
    exact fun h => isSearchable_iff.mp (h term ht) hw
  simp [retrieve, hr, hall]

theorem all_isSearchable (hs : ∀ term ∈ q.regular, Text.indexWords term ≠ []) :
    q.regular.all Index.isSearchable = true :=
  List.all_eq_true.mpr fun term ht => isSearchable_iff.mpr (hs term ht)

/-- A search has to add a weight beyond the doubles: a document lists one of the words in a searched field with such a
weight. -/
def AddsHuge (ix : Index) (terms fields : List String) (boost : Boost) : Prop :=
  ∃ name ∈ ix.searchFields fields, (Index.askedWeight boost name).isBeyondDoubles = true ∧
    ∃ d ∈ ix.documents, ∃ word ∈ Index.queryWords terms, d.hits name word = true

theorem overflows_iff_addsHuge (hix : Index.Consistent ix) (terms : List String) :
    ix.overflows (Index.queryWords terms) (ix.searchFields fields) (Index.weights boost) = true ↔
      AddsHuge ix terms fields boost := by
  rw [Index.overflows_iff hix]
  simp only [Index.weight_weights, AddsHuge]

/-- Where the search of the index fails, all bookmarks are looked at. -/
theorem retrieve_overflowing (hix : Index.Consistent ix) (hr : q.regular ≠ [])
    (hs : ∀ term ∈ q.regular, Text.indexWords term ≠ []) (hhuge : AddsHuge ix q.regular fields boost) :
    retrieve bs q (.ready ix) fields boost = (scan bs q, true) := by
  obtain ⟨e, he⟩ := Index.search_fails ((overflows_iff_addsHuge hix q.regular).mpr hhuge)
  simp only [retrieve, List.isEmpty_eq_false_iff.mpr hr, all_isSearchable hs, he, Bool.false_eq_true, if_false, if_true]

/-- **With an index the bookmarks of the scan are found in which a word of a term begins a word.** -/
theorem retrieve_ready (hix : Index.Consistent ix) (hbs : ∀ b ∈ bs, HoldsDocument ix b) (hr : q.regular ≠ [])
    (hs : ∀ term ∈ q.regular, Text.indexWords term ≠ []) (hsmall : ¬AddsHuge ix q.regular fields boost) :
    retrieve bs q (.ready ix) fields boost =
      ((scan bs q).filter (matchesWord q.regular (ix.searchFields fields)), false) := by
  have hsearch : ix.search q.regular fields boost = .ok (ix.ranking q.regular fields boost) :=
    Index.search_eq_ok (Bool.eq_false_iff.mpr (mt (overflows_iff_addsHuge hix q.regular).mp hsmall))
  have hids : withIds ((ix.ranking q.regular fields boost).map Prod.fst) bs =
      bs.filter (matchesWord q.regular (ix.searchFields fields)) := by
    refine List.filter_congr fun b hb => ?_
    rw [Bool.eq_iff_iff, List.contains_iff_mem, mem_ranking_of_holdsDocument hix (hbs b hb)]
  simp only [retrieve, List.isEmpty_eq_false_iff.mpr hr, all_isSearchable hs, hsearch, hids, scan, Bool.false_eq_true,
    if_false, if_true, List.filter_filter, Bool.and_comm]

/-! ## What a lookup may miss -/

/-- A character between words. -/
def separates (c : Char) : Bool := !Text.isWordChar c

/-- A word of a term that begins a word of a field is a hit. -/
theorem matchesWord_of_prefix {terms searched : List String} {name : String} (ht : term ∈ terms)
    (hlower : Text.lowerChars term.toList = term.toList) (hn : name ∈ searched) {w w' : List Char}
    (hw : w ∈ Text.splitOn separates term.toList)
    (hw' : String.ofList w' ∈ Text.indexWords (b.textOf name)) (hp : w <+: w') :
    matchesWord terms searched b = true := by
  refine matchesWord_iff.mpr ⟨term, ht, String.ofList w, ?_, name, hn, ?_⟩
  · rw [Text.indexWords, hlower]
    exact List.mem_map_of_mem hw
  · exact List.any_eq_true.mpr ⟨_, hw', Text.startsWith_iff.mpr (by simpa using hp)⟩

theorem splitOn_ne_nil (hlower : Text.lowerChars term.toList = term.toList) (hne : Text.indexWords term ≠ []) :
    Text.splitOn separates term.toList ≠ [] := by
  rw [Text.indexWords, hlower] at hne
  exact fun h => hne (List.map_eq_nil_iff.mpr h)

section Misses

variable {terms searched : List String} (hall : ∀ name ∈ Bookmark.indexedFields, name ∈ searched) (ht : term ∈ terms)
  (hlower : Text.lowerChars term.toList = term.toList) (hne : Text.indexWords term ≠ [])

include hall ht hlower

/-- A word of a term that begins a word of the searchable text is a hit if all fields are searched. -/
theorem matchesWord_of_searchableText {w w' : List Char} (hw : w ∈ Text.splitOn separates term.toList)
    (hw' : w' ∈ Text.splitOn separates (Text.lower b.searchableText).toList) (hp : w <+: w') :
    matchesWord terms searched b = true := by
  rw [Text.toList_lower] at hw'
  obtain ⟨name, hn, hmem⟩ := mem_indexWords_searchableText.mp (List.mem_map_of_mem (f := String.ofList) hw')
  exact matchesWord_of_prefix ht hlower (hall name hn) hw hmem hp

theorem matchesWord_of_hasInnerWord (hc : Text.contains (Text.lower b.searchableText) term = true)
    (hi : Text.HasInnerWord separates term.toList) : matchesWord terms searched b = true := by
  obtain ⟨w, hw, w', hw', hp⟩ := Text.exists_prefix_of_hasInnerWord hi (Text.contains_iff.mp hc)
  exact matchesWord_of_searchableText hall ht hlower hw hw' hp

include hne

theorem matchesWord_of_beginsIn (hb : Text.BeginsIn separates term.toList (Text.lower b.searchableText).toList) :
    matchesWord terms searched b = true := by
  obtain ⟨w, hw⟩ := List.exists_mem_of_ne_nil _ (splitOn_ne_nil hlower hne)
  obtain ⟨w', hw', hp⟩ := Text.exists_prefix_of_beginsIn hb hw
  exact matchesWord_of_searchableText hall ht hlower hw hw' hp

theorem matchesWord_of_startsWith {name : String} (hn : name ∈ Bookmark.indexedFields)
    (hs : Text.startsWith (Text.lower (b.textOf name)) term = true) : matchesWord terms searched b = true := by
  obtain ⟨w, hw⟩ := List.exists_mem_of_ne_nil _ (splitOn_ne_nil hlower hne)
  rw [Text.startsWith_iff, Text.toList_lower] at hs
  obtain ⟨w', hw', hp⟩ := Text.exists_prefix_of_beginsIn (Text.beginsIn_of_prefix hs) hw
  exact matchesWord_of_prefix ht hlower (hall name hn) hw (List.mem_map_of_mem hw') hp

/-- A term that misses a bookmark in which it occurs goes on a word there, and begins with a character of it. -/
theorem inside_of_not_matchesWord (hm : ¬matchesWord terms searched b = true) {before behind : List Char}
    (htext : (Text.lower b.searchableText).toList = before ++ term.toList ++ behind) :
    ∃ front c d rest, before = front ++ [c] ∧ term.toList = d :: rest ∧ Text.isWordChar c = true ∧
      Text.isWordChar d = true := by
  have hbefore : ∃ front c, before = front ++ [c] ∧ Text.isWordChar c = true := by
    by_contra hno
    refine hm (matchesWord_of_beginsIn hall ht hlower hne ⟨before, behind, htext, fun c hc => ?_⟩)
    obtain ⟨front, rfl⟩ := List.getLast?_eq_some_iff.mp hc
    simpa [separates] using fun hw => hno ⟨front, c, rfl, hw⟩
  have hterm : ∃ d rest, term.toList = d :: rest ∧ Text.isWordChar d = true := by
    have hpieces := splitOn_ne_nil hlower hne
    cases hcs : term.toList with
    | nil => rw [hcs] at hpieces; exact absurd rfl hpieces
    | cons d rest =>
      refine ⟨d, rest, rfl, ?_⟩
      by_contra hd
      have hsep : separates d = true := by simpa [separates] using hd
      have hinner := Text.hasInnerWord_of_separator hsep (hcs ▸ hpieces)
      have hc : Text.contains (Text.lower b.searchableText) term = true :=
        Text.contains_iff.mpr ⟨before, behind, htext.symm⟩
      exact hm (matchesWord_of_hasInnerWord hall ht hlower hc (hcs ▸ hinner))
  obtain ⟨front, c, rfl, hc⟩ := hbefore
  obtain ⟨d, rest, hterm, hd⟩ := hterm
  exact ⟨front, c, d, rest, rfl, hterm, hc, hd⟩

end Misses

theorem all_searchable_or (terms : List String) :
    (∀ term ∈ terms, Text.indexWords term ≠ []) ∨ ∃ term ∈ terms, Text.indexWords term = [] := by
  by_cases h : ∃ term ∈ terms, Text.indexWords term = []
  · exact Or.inr h
  · exact Or.inl fun term ht hw => h ⟨term, ht, hw⟩

/-- **A search with an index that holds the documents of all bookmarks.**  If the index could not know one of the
regular terms all bookmarks of the scan are found, and else those in which a word of a term begins a word of a searched
field, whatever the weights.  Only a weight beyond the doubles that has to be added lets the search down, and then all
bookmarks of the scan are found.  If all fields are searched, every bookmark of the scan is found in which a regular
term begins a field, stands behind a separator, or has a word behind a separator itself: a bookmark that is missed has
the terms inside of words only. -/
theorem retrieve_by_index {text : String} (hq : TextQuery.parse host text = .ok q) (hr : q.regular ≠ [])
    (hix : Index.Reachable ix) (hbs : ∀ b ∈ bs, HoldsDocument ix b) (fields : List String) (boost : Boost) :
    let r := retrieve bs q (.ready ix) fields boost
    ((∃ term ∈ q.regular, Text.indexWords term = []) → r = (scan bs q, false)) ∧
      ((∀ term ∈ q.regular, Text.indexWords term ≠ []) → ¬AddsHuge ix q.regular fields boost →
        r = ((scan bs q).filter (matchesWord q.regular (ix.searchFields fields)), false)) ∧
      ((∀ term ∈ q.regular, Text.indexWords term ≠ []) → AddsHuge ix q.regular fields boost →
        r = (scan bs q, true)) ∧
      ((∀ name ∈ Bookmark.indexedFields, name ∈ ix.searchFields fields) →
        ∀ b ∈ scan bs q, ∀ term ∈ q.regular, Text.contains (Text.lower b.searchableText) term = true →
          ((∃ name ∈ Bookmark.indexedFields, Text.startsWith (Text.lower (b.textOf name)) term = true) ∨
            Text.BeginsIn separates term.toList (Text.lower b.searchableText).toList ∨
            Text.HasInnerWord separates term.toList) → b ∈ r.1) ∧
      ((∀ name ∈ Bookmark.indexedFields, name ∈ ix.searchFields fields) →
        ∀ b ∈ scan bs q, b ∉ r.1 → ∀ term ∈ q.regular, ∀ before behind,
          (Text.lower b.searchableText).toList = before ++ term.toList ++ behind →
          ∃ front c d rest, before = front ++ [c] ∧ term.toList = d :: rest ∧ Text.isWordChar c = true ∧
            Text.isWordChar d = true) := by
  intro r
  have hunsearchable : (∃ term ∈ q.regular, Text.indexWords term = []) → r = (scan bs q, false) :=
    retrieve_unsearchable hr
  have hsearchable : (∀ term ∈ q.regular, Text.indexWords term ≠ []) → ¬AddsHuge ix q.regular fields boost →
      r = ((scan bs q).filter (matchesWord q.regular (ix.searchFields fields)), false) :=
    retrieve_ready hix.consistent hbs hr
  have hoverflowing : (∀ term ∈ q.regular, Text.indexWords term ≠ []) → AddsHuge ix q.regular fields boost →
      r = (scan bs q, true) := retrieve_overflowing hix.consistent hr
  have hfound : ∀ b ∈ scan bs q, ((∀ term ∈ q.regular, Text.indexWords term ≠ []) →
      matchesWord q.regular (ix.searchFields fields) b = true) → b ∈ r.1 := by
    intro b hb hm
    rcases all_searchable_or q.regular with hs | hs
    · by_cases hhuge : AddsHuge ix q.regular fields boost
      · rwa [hoverflowing hs hhuge]
      · rw [hsearchable hs hhuge]
        exact List.mem_filter.mpr ⟨hb, hm hs⟩
    · rwa [hunsearchable hs]
  refine ⟨hunsearchable, hsearchable, hoverflowing, ?_, ?_⟩
  · intro hall b hb term ht hc hcase
    refine hfound b hb fun hs => ?_
    have hlower := lower_of_mem_regular hq ht
    rcases hcase with ⟨name, hn, hstart⟩ | hbegins | hinner
    · exact matchesWord_of_startsWith hall ht hlower (hs term ht) hn hstart
    · exact matchesWord_of_beginsIn hall ht hlower (hs term ht) hbegins
    · exact matchesWord_of_hasInnerWord hall ht hlower hc hinner
  · intro hall b hb hmiss term ht before behind htext
    obtain ⟨hs, hm⟩ := Classical.not_imp.mp (mt (hfound b hb) hmiss)
    exact inside_of_not_matchesWord hall ht (lower_of_mem_regular hq ht) (hs term ht) hm htext

/-- A fresh index of one bookmark, asked for all its fields. -/
theorem searchFields_after (b : Bookmark) :
    (Index.after Bookmark.indexedFields [.add b]).searchFields [] = Bookmark.indexedFields := by
  rw [Index.searchFields, Index.fields_after]
  rfl

/-- A fresh index of one bookmark holds its document. -/
theorem holdsDocument_after (b : Bookmark) :
    ∀ c ∈ [b], HoldsDocument (Index.after Bookmark.indexedFields [.add b]) c := by
  intro c hc
  rw [List.mem_singleton.mp hc]
  have hfields : (Index.after Bookmark.indexedFields [.add b]).fields = Bookmark.indexedFields :=
    Index.fields_after _ _
  refine ⟨Document.docOf _ b, ?_, Document.of_indexed (fun _ h => hfields ▸ h) b⟩
  rw [(Index.after_holds (fun _ h => h) [.add b]).documents]
  exact List.mem_singleton_self _

/-- The beginning of a word of a title finds the bookmark, what stands inside of the word does not. -/
theorem retrieve_by_index_sample :
    let b : Bookmark := { id := "a", title := "Programming in Lean" }
    let ix := Index.after Bookmark.indexedFields [.add b]
    (TextQuery.parse {} "prog" = .ok { regular := ["prog"] } ∧
        TextQuery.parse {} "gramm" = .ok { regular := ["gramm"] }) ∧
      Index.Reachable ix ∧ (∀ c ∈ [b], HoldsDocument ix c) ∧
      (retrieve [b] { regular := ["prog"] } (.ready ix) [] []).1.map (·.id) = ["a"] ∧
      (retrieve [b] { regular := ["gramm"] } (.ready ix) [] []).1.map (·.id) = [] := by
  intro b ix
  have hprog : TextQuery.parse {} "prog" = .ok { regular := ["prog"] } := by rfl
  have hgramm : TextQuery.parse {} "gramm" = .ok { regular := ["gramm"] } := by rfl
  have hix : Index.Reachable ix := .change (.add b) (.new _)
  have hbs := holdsDocument_after b
  have hsearched : ix.searchFields [] = Bookmark.indexedFields := searchFields_after b
  have hsmall : ∀ terms, ¬AddsHuge ix terms [] [] := by
    rintro terms ⟨name, hn, hhuge, _⟩
    rw [hsearched] at hn
    have hall : ∀ name ∈ Bookmark.indexedFields, (Index.askedWeight [] name).isBeyondDoubles = false := by
      decide +kernel
    rw [hall name hn] at hhuge
    cases hhuge
  refine ⟨⟨hprog, hgramm⟩, hix, hbs, ?_, ?_⟩
  · obtain ⟨_, h, _⟩ := retrieve_by_index hprog (by decide) hix hbs [] []
    rw [h (by decide +kernel) (hsmall _), hsearched]
    decide +kernel
  · obtain ⟨_, h, _⟩ := retrieve_by_index hgramm (by decide) hix hbs [] []
    rw [h (by decide +kernel) (hsmall _), hsearched]
    decide +kernel

/-- A weight beyond the doubles lets a search down. -/
theorem retrieve_huge_weight :
    let b : Bookmark := { id := "a", title := "rust" }
    let ix := Index.after Bookmark.indexedFields [.add b]
    TextQuery.parse {} "rust" = .ok { regular := ["rust"] } ∧ (∀ c ∈ [b], HoldsDocument ix c) ∧
      (retrieve [b] { regular := ["rust"] } (.ready ix) [] [("title", .int (Nat.pow 10 400))]).2 = true := by
  intro b ix
  refine ⟨rfl, holdsDocument_after b, ?_⟩
  have hix : Index.Consistent ix := (Index.Reachable.change (.add b) (.new _)).consistent
  have hsearched : ix.searchFields [] = Bookmark.indexedFields := searchFields_after b
  have hdocument : Document.docOf ix.fields b ∈ ix.documents := by
    rw [(Index.after_holds (fun _ h => h) [.add b]).documents]
    exact List.mem_singleton_self _
  have hhit : (Document.docOf ix.fields b).hits "title" "rust" = true := by
    rw [Index.fields_after]
    decide +kernel
  have hhuge : AddsHuge ix ["rust"] [] [("title", .int (Nat.pow 10 400))] :=
    ⟨"title", by rw [hsearched]; decide, by decide +kernel, _, hdocument, "rust", by decide +kernel, hhit⟩
  rw [retrieve_overflowing hix (by decide) (by decide +kernel) hhuge]

end Shelfmark.Search
