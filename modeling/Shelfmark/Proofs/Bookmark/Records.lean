import Shelfmark.Bookmark.Record
import Shelfmark.Proofs.Time.Reading

/-!
# Bookmarks read back from their records

- Every part of a bookmark is read back from the value that it is written as (`Json.asText_str`,
  `Json.asTexts_ofStrings`, `Timestamp.ofJson_ofOption` and so on), and so is the whole (`reread_eq`);
- what is read depends only on the values that the record has under the names of the fields (`readFields_congr`), so a
  field with two names may be renamed from one to the other (`readFields_renameField`).
-/

namespace Shelfmark

/-! ## Sets of texts -/

/-- Different texts are collected in reverse order. -/
theorem foldl_collect : ∀ {xs acc : List String}, xs.Nodup → (∀ x ∈ xs, x ∉ acc) →
    xs.foldl (fun acc x => if acc.contains x then acc else x :: acc) acc = xs.reverse ++ acc
  | [], _, _, _ => rfl
  | x :: rest, acc, hn, hacc => by
    obtain ⟨hx, hn⟩ := List.nodup_cons.mp hn
    have hnew : acc.contains x = false := by simpa using hacc x List.mem_cons_self
    have hrest : ∀ y ∈ rest, y ∉ x :: acc := by
      intro y hy hmem
      rcases List.mem_cons.mp hmem with rfl | hmem
      · exact hx hy
      · exact hacc y (List.mem_cons_of_mem x hy) hmem
    rw [List.foldl_cons, hnew, if_neg Bool.false_ne_true, foldl_collect hn hrest]
    simp

/-- **The members of a set in strict order are that set.** -/
theorem sortedSet_of_pairwise {xs : List String} (h : xs.Pairwise (· < ·)) : sortedSet xs = xs := by
  have hnodup : xs.Nodup := h.imp fun {a b} (hab : a < b) => by
    rintro rfl
    exact String.lt_irrefl a hab
  have hperm : (sortedSet xs).Perm xs := by
    rw [sortedSet, foldl_collect hnodup (by simp), List.append_nil]
    exact (List.mergeSort_perm _ _).trans (List.reverse_perm xs)
  refine hperm.eq_of_pairwise (fun a b _ _ hab hba => ?_) (pairwise_sortedSet xs) h
  exact absurd hba (String.lt_asymm hab)

/-! ## Values -/

namespace Json

@[simp] theorem asText_str (s : String) : (str s).asText = .ok s := by
  by_cases hs : s = ""
  · subst hs
    rfl
  · simp [asText, isTrue, hs]

theorem textItems_map_str : ∀ xs : List String, textItems (xs.map str) = .ok xs
  | [] => rfl
  | x :: rest => by
    rw [List.map_cons, textItems, textItems_map_str rest]
    rfl

@[simp] theorem asTexts_ofStrings (xs : List String) : (ofStrings xs).asTexts = .ok xs := by
  cases xs with
  | nil => rfl
  | cons x rest => exact textItems_map_str (x :: rest)

@[simp] theorem asCount_int (n : Int) : (int n).asCount = .ok n := by
  by_cases hn : n = 0
  · subst hn
    rfl
  · simp [asCount, isTrue, hn]

@[simp] theorem asFlag_ofOption (b : Option Bool) : (ofOption bool b).asFlag = .ok b := by
  cases b <;> rfl

@[simp] theorem asNumber_ofOption (n : Option Number) : (ofOption Number.toJson n).asNumber = .ok n := by
  rcases n with _ | _ | _ <;> rfl

@[simp] theorem asObject_obj (fields : List (String × Json)) : (obj fields).asObject = .ok fields := by
  cases fields <;> rfl

end Json

@[simp] theorem Timestamp.ofJson_ofOption (t : Option Timestamp) : ofJson (Json.ofOption toJson t) = .ok t := by
  cases t with
  | none => rfl
  | some t => exact Timestamp.ofJson_toJson t

namespace Bookmark

@[simp] theorem readKeywords_ofStrings (xs : List String) : readKeywords (Json.ofStrings xs) = .ok xs :=
  Json.asTexts_ofStrings xs

/-! ## What a record is read for -/

/-- The names of the fields that have only one. -/
def plainNames : List String :=
  ["id", "url", "title", "description", "domain", "category", "keywords", "tags", "topics", "platform", "creator"]

/-- The names of the fields that have two, in snake case and in camel case. -/
def pairedNames : List (String × String) :=
  [("folder_path", "folderPath"),
    ("content_type", "contentType"),
    ("date_added", "dateAdded"),
    ("last_accessed", "lastAccessed"),
    ("access_count", "accessCount"),
    ("is_alive", "isAlive"),
    ("reading_time", "readingTime"),
    ("quality_score", "qualityScore"),
    ("published_date", "publishedDate"),
    ("content_snippet", "contentSnippet"),
    ("platform_data", "platformData"),
    ("raw_metadata", "rawMetadata")]

/-- **Records that agree in the fields of a bookmark are read alike.** -/
theorem readFields_congr {r r' : List (String × Json)}
    (hplain : ∀ key ∈ plainNames, Json.lookup key r = Json.lookup key r')
    (hpaired : ∀ p ∈ pairedNames, pick r p.1 p.2 = pick r' p.1 p.2) : readFields r = readFields r' := by
  simp only [plainNames, pairedNames, List.forall_mem_cons] at hplain hpaired
  simp only [readFields, hplain, hpaired]

/-- A record that has the fields of a bookmark is read as this bookmark. -/
theorem readFields_of_lookup {b : Bookmark} {r : List (String × Json)}
    (h : ∀ f ∈ b.toFields, Json.lookup f.1 r = some f.2) : readFields r = .ok b := by
  have htags : ∀ {tags : List String} (hs : tags.Pairwise (· < ·)), tags = b.tags →
      { b with tags, tags_sorted := hs } = b := by
    rintro _ _ rfl
    rfl
  simp only [toFields, List.forall_mem_cons] at h
  simp only [readFields, pick, h, Option.orElse_some, Option.getD_some, Json.asText_str, readKeywords_ofStrings,
    Json.asTexts_ofStrings, Timestamp.ofJson_toJson, Timestamp.ofJson_ofOption, Json.asCount_int, Json.asFlag_ofOption,
    Json.asNumber_ofOption, Json.asObject_obj]
  exact congrArg Except.ok (htags (pairwise_sortedSet b.tags) (sortedSet_of_pairwise b.tags_sorted))

/-- The first field with a name is the only one if all names are different. -/
theorem lookup_of_mem {f : String × Json} : ∀ {r : List (String × Json)}, (r.map Prod.fst).Nodup → f ∈ r →
    Json.lookup f.1 r = some f.2
  | g :: rest, hn, hf => by
    obtain ⟨hg, hn⟩ := List.nodup_cons.mp hn
    rcases List.mem_cons.mp hf with rfl | hf
    · simp [Json.lookup]
    · have hne : (g.1 == f.1) = false := by
        rw [beq_eq_false_iff_ne]
        rintro he
        exact hg (he ▸ List.mem_map_of_mem hf)
      simp only [Json.lookup, hne, Bool.false_eq_true, if_false, lookup_of_mem hn hf]

theorem nodup_names (b : Bookmark) : (b.toFields.map Prod.fst).Nodup := by
  show ["id", "url", "title", "description", "domain", "category", "folder_path", "keywords", "tags", "topics",
    "content_type", "platform", "creator", "date_added", "last_accessed", "access_count", "is_alive", "reading_time",
    "quality_score", "published_date", "content_snippet", "platform_data", "raw_metadata"].Nodup
  decide

/-- **A bookmark is read back from its record.** -/
theorem reread_eq (b : Bookmark) : b.reread = .ok b :=
  readFields_of_lookup fun _ hf => lookup_of_mem b.nodup_names hf

/-! ## Renaming -/

/-- Gives another name to the fields with a name. -/
def renameField (old new : String) (r : List (String × Json)) : List (String × Json) :=
  r.map fun f => (if f.1 == old then new else f.1, f.2)

section Renaming

variable {old new key : String}

/-- The other fields are found as before. -/
theorem lookup_renameField_of_ne (hold : key ≠ old) (hnew : key ≠ new) :
    ∀ r : List (String × Json), Json.lookup key (renameField old new r) = Json.lookup key r
  | [] => rfl
  | (k, v) :: rest => by
    have hrest := lookup_renameField_of_ne hold hnew rest
    rw [renameField] at hrest
    by_cases hk : k = old
    · have hk' : (k == key) = false := by simpa [hk] using hold.symm
      have hn' : (new == key) = false := by simpa using hnew.symm
      simp only [renameField, List.map_cons, Json.lookup, hk, beq_self_eq_true, if_true, hn', hrest, Bool.false_eq_true,
        if_false, hk ▸ hk']
    · have hk' : (k == old) = false := by simpa using hk
      simp only [renameField, List.map_cons, Json.lookup, hk', Bool.false_eq_true, if_false, hrest]

/-- Nothing is left under the old name. -/
theorem lookup_renameField_old (hne : old ≠ new) :
    ∀ r : List (String × Json), Json.lookup old (renameField old new r) = none
  | [] => rfl
  | (k, v) :: rest => by
    have hrest := lookup_renameField_old hne rest
    rw [renameField] at hrest
    have hother : ((if k == old then new else k) == old) = false := by
      split
      · simpa using hne.symm
      · rename_i hk
        simpa using hk
    simp only [renameField, List.map_cons, Json.lookup, hother, Bool.false_eq_true, if_false, hrest]

/-- What stood under the old name stands under the new one, if nothing stood there. -/
theorem lookup_renameField_new : ∀ {r : List (String × Json)}, Json.lookup new r = none →
    Json.lookup new (renameField old new r) = Json.lookup old r
  | [], _ => rfl
  | (k, v) :: rest, h => by
    unfold Json.lookup at h
    split at h
    · cases h
    · rename_i hk
      have hrest := lookup_renameField_new h
      rw [renameField] at hrest
      by_cases ho : k = old
      · simp [renameField, Json.lookup, ho]
      · have ho' : (k == old) = false := by simpa using ho
        simp only [renameField, List.map_cons, Json.lookup, ho', Bool.false_eq_true, if_false, hk, hrest]

/-- A name of a pair is neither a name of another pair nor the name of a field with one name. -/
theorem pairedNames_distinct : (∀ p ∈ pairedNames, ∀ q ∈ pairedNames, q = p ∨
    (q.1 ≠ p.1 ∧ q.1 ≠ p.2) ∧ q.2 ≠ p.1 ∧ q.2 ≠ p.2) ∧
    ∀ p ∈ pairedNames, p.1 ≠ p.2 ∧ ∀ key ∈ plainNames, key ≠ p.1 ∧ key ≠ p.2 := by
  decide +kernel

/-- **A field with two names may be renamed from one to the other if only one of them is given.** -/
theorem readFields_renameField {p : String × String} (hp : p ∈ pairedNames) (hnames : (old, new) = p ∨ (new, old) = p)
    {r : List (String × Json)} (h : Json.lookup new r = none) : readFields (renameField old new r) = readFields r := by
  obtain ⟨hpairs, hplain⟩ := pairedNames_distinct
  obtain ⟨hne, hkeys⟩ := hplain p hp
  have hother : ∀ key, key ≠ p.1 → key ≠ p.2 → Json.lookup key (renameField old new r) = Json.lookup key r := by
    intro key h₁ h₂
    rcases hnames with rfl | rfl
    · exact lookup_renameField_of_ne h₁ h₂ r
    · exact lookup_renameField_of_ne h₂ h₁ r
  have hpick : pick (renameField old new r) p.1 p.2 = pick r p.1 p.2 := by
    rcases hnames with rfl | rfl
    · simp only [pick, lookup_renameField_old hne, lookup_renameField_new h, h]
      cases Json.lookup old r <;> rfl
    · simp only [pick, lookup_renameField_old hne.symm, lookup_renameField_new h, h]
      cases Json.lookup old r <;> rfl
  refine readFields_congr (fun key hkey => hother key (hkeys key hkey).1 (hkeys key hkey).2) fun q hq => ?_
  rcases hpairs p hp q hq with rfl | ⟨⟨h₁, h₂⟩, h₃, h₄⟩
  · exact hpick
  · simp only [pick, hother _ h₁ h₂, hother _ h₃ h₄]

end Renaming

end Bookmark

end Shelfmark
