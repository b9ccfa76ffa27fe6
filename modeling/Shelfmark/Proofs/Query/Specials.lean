import Shelfmark.Proofs.Query.Lines
import Shelfmark.Query.Special

/-!
# Special filters of a line

A query is a line of filters and plain words (`SearchToken`).  Its keys are looked for one after the other, and each
time the first filter with the key is struck out (`takeKey_line`), whatever was struck out for other keys before
(`strikeFirst_struck`).  So of each key the first filter is set, and all other tokens remain (`parse_tokens`).
-/

namespace Shelfmark.Query

/-! ## Tokens -/

/-- A value that a filter may have: yes or no in any case, or a text without blanks and quotes. -/
def ValueKind.Admits : ValueKind → List Char → Prop
  | .yesNo, v => v.map Char.toLower = ['y', 'e', 's'] ∨ v.map Char.toLower = ['n', 'o']
  | .lowered, v | .verbatim, v => IsBare v

/-- A token of a query: a filter, whose key may have any case, or a plain word. -/
inductive SearchToken
  | filter (key : FilterKey) (name value : List Char) (named : name.map Char.toLower = key.word.toList)
      (admitted : key.kind.Admits value)
  | word (w : PlainWord)

namespace SearchToken

/-- A token as it is written. -/
def chars : SearchToken → List Char
  | filter _ name value _ _ => name ++ ':' :: value
  | word w => w.chars

/-- The key of a filter. -/
def key? : SearchToken → Option FilterKey
  | filter key _ _ _ _ => some key
  | word _ => none

/-- The value of a filter with a key. -/
def value? (key : FilterKey) : SearchToken → Option (List Char)
  | filter key' _ value _ _ => if key' = key then some value else none
  | word _ => none

end SearchToken

/-! ## Recognizing the filters of a key -/

theorem FilterKey.mem_all (key : FilterKey) : key ∈ all := by
  cases key <;> decide

theorem FilterKey.allSmall_word (key : FilterKey) : AllSmall key.word.toList := by
  cases key <;> decide

theorem FilterKey.word_inj {key key' : FilterKey} : key.word.toList = key'.word.toList ↔ key = key' := by
  have hfind : ∀ key : FilterKey, all.find? (fun k => k.word.toList == key.word.toList) = some key := by
    intro key
    cases key <;> rfl
  exact word_inj_of_find hfind

theorem isBlank_of_admits {kind : ValueKind} {v : List Char} (h : kind.Admits v) : ∀ c ∈ v, Text.isBlank c = false := by
  intro c hc
  cases kind with
  | lowered | verbatim => exact (h.2 c hc).1
  | yesNo =>
    rcases h with h | h
    · exact isBlank_of_lowered (by decide) h hc
    · exact isBlank_of_lowered (by decide) h hc

theorem unbroken_searchToken : Unbroken SearchToken.chars := by
  intro t
  cases t with
  | filter key name value named admitted =>
    exact ⟨by simp [SearchToken.chars], isBlank_filter key.allSmall_word named (isBlank_of_admits admitted)⟩
  | word w => exact ⟨w.bare.1, fun c hc => (w.bare.2 c hc).1⟩

/-- A value is read up to the next blank. -/
theorem valueOf?_admitted {kind : ValueKind} {v rest : List Char} (h : kind.Admits v) (hrest : AtBreak rest) :
    SpecialFilters.valueOf? kind (v ++ rest) = some (v, v.length) := by
  cases kind with
  | lowered | verbatim => exact value?_bare h hrest
  | yesNo =>
    rcases h with h | h
    · exact oneOf?_written (by decide) (by decide) h (by decide) hrest
    · exact oneOf?_written (by decide) (by decide) h (by decide) hrest

/-- **The filters of a key, and no other tokens, are recognized by it.** -/
theorem reads_recognizer (key : FilterKey) :
    Reads (SpecialFilters.recognizer key) SearchToken.chars (SearchToken.value? key) where
  anchored := anchored_keyed _ _
  blank cs := keyed_eq_none (not_opensWith_plain key.allSmall_word List.not_mem_nil (atBreak_blank cs))
  token t rest hrest := by
    cases t with
    | filter key' name value named admitted =>
      have hvalue : key.word.toList = key'.word.toList →
          SpecialFilters.valueOf? key.kind (value ++ rest) = some (value, value.length) := by
        intro h
        rw [FilterKey.word_inj.mp h]
        exact valueOf?_admitted admitted hrest
      have hfound := keyed_filter key.allSmall_word key'.allSmall_word named hvalue
      simp only [FilterKey.word_inj] at hfound
      show SpecialFilters.recognizer key none (name ++ ':' :: value ++ rest) = _
      rw [SpecialFilters.recognizer, hfound]
      by_cases hkey : key = key' <;> simp [SearchToken.value?, SearchToken.chars, hkey, eq_comm]
    | word w => exact keyed_eq_none (not_opensWith_plain key.allSmall_word w.noColon hrest)

/-! ## Striking out -/

section Striking

variable {key : FilterKey} {done seen : List FilterKey} {ts : List SearchToken}

/-- Tokens, of which the first filter with each of some keys is struck out; the keys in `seen` came before. -/
def struck (done seen : List FilterKey) : List SearchToken → List (Option SearchToken)
  | [] => []
  | t :: ts =>
    match t.key? with
    | some key => (if key ∈ done ∧ key ∉ seen then none else some t) :: struck done (key :: seen) ts
    | none => some t :: struck done seen ts

/-- The value of the first filter with a key. -/
def firstValue (key : FilterKey) (ts : List SearchToken) : Option (List Char) := ts.findSome? (SearchToken.value? key)

theorem struck_nil (seen : List FilterKey) (ts : List SearchToken) : struck [] seen ts = ts.map some := by
  induction ts generalizing seen with
  | nil => rfl
  | cons t ts ih => cases t <;> simp [struck, SearchToken.key?, ih]

/-- A key of which there is no filter, or none that is the first, strikes nothing out. -/
theorem struck_idle (h : firstValue key ts = none ∨ key ∈ seen) :
    struck (key :: done) seen ts = struck done seen ts := by
  induction ts generalizing seen with
  | nil => rfl
  | cons t ts ih =>
    cases t with
    | word w => exact congrArg _ (ih h)
    | filter key' name value named admitted =>
      have hfirst : firstValue key (.filter key' name value named admitted :: ts) =
          if key' = key then some value else firstValue key ts := by
        by_cases hkey : key' = key <;> simp [firstValue, SearchToken.value?, hkey]
      rw [hfirst] at h
      by_cases hkey : key' = key
      · have hseen : key ∈ seen := by simpa [hkey] using h
        subst hkey
        simp [struck, SearchToken.key?, hseen, ih (Or.inr (List.mem_cons_self))]
      · have hrest : firstValue key ts = none ∨ key ∈ key' :: seen := by
          simp only [hkey, if_false] at h
          exact h.imp_right (List.mem_cons_of_mem key')
        simp [struck, SearchToken.key?, hkey, ih hrest]

/-- **What is struck out for other keys does not change which filter is the first with a key.** -/
theorem strikeFirst_struck (hdone : key ∉ done) (hseen : key ∉ seen) :
    strikeFirst (SearchToken.value? key) (struck done seen ts) =
      (firstValue key ts).map fun v => (v, struck (key :: done) seen ts) := by
  induction ts generalizing seen with
  | nil => rfl
  | cons t ts ih =>
    cases t with
    | word w =>
      simp only [struck, SearchToken.key?, strikeFirst, SearchToken.value?, Option.bind_some, ih hseen, firstValue,
        List.findSome?_cons, Option.map_map]
      rfl
    | filter key' name value named admitted =>
      by_cases hkey : key' = key
      · subst hkey
        have hrest : struck (key' :: done) (key' :: seen) ts = struck done (key' :: seen) ts :=
          struck_idle (Or.inr List.mem_cons_self)
        simp [struck, SearchToken.key?, strikeFirst, SearchToken.value?, hdone, hseen, firstValue, hrest]
      · have hseen' : key ∉ key' :: seen := by
          simp [Ne.symm hkey, hseen]
        have hmem : key' ∈ key :: done ↔ key' ∈ done := by
          simp [hkey]
        -- the token says nothing about the key, struck out or not
        have hsilent : ∀ p : Prop, ∀ [Decidable p],
            (if p then none else some (SearchToken.filter key' name value named admitted)).bind
              (SearchToken.value? key) = none := by
          intro p _
          split
          · rfl
          · simp [SearchToken.value?, hkey]
        simp only [struck, SearchToken.key?, strikeFirst, hsilent, ih hseen', hmem, firstValue, List.findSome?_cons,
          SearchToken.value?, hkey, if_false, Option.map_map]
        rfl

end Striking

/-! ## Reading a line -/

namespace SpecialFilters

/-- The filters of some values, one for each key that has one; the value of author goes before that of channel. -/
def ofValues (value : FilterKey → Option (List Char)) : SpecialFilters where
  category := (value .category).map lowered
  domain := (value .domain).map lowered
  platform := (value .platform).map lowered
  creator := ((value .author).or (value .channel)).map String.ofList
  repo := (value .repo).map lowered
  contentType := (value .type).map lowered
  hasImage := (value .hasImage).map isYes
  playlist := (value .playlist).map String.ofList
  accessed := (value .accessed).map isYes
  stale := (value .stale).map isYes
  enriched := (value .enriched).map isYes
  dead := (value .dead).map isYes
  folder := (value .folder).map lowered
where
  lowered (v : List Char) : String := String.ofList (Text.lowerChars v)
  isYes (v : List Char) : Bool := Text.lowerChars v == ['y', 'e', 's']

/-- Sets the filter of a key if there is a value. -/
def setOption (f : SpecialFilters) (key : FilterKey) : Option (List Char) → SpecialFilters
  | some v => f.set key v
  | none => f

/-- A key sets its filter and leaves the others. -/
theorem setOption_eq (f : SpecialFilters) (key : FilterKey) (value : Option (List Char)) : f.setOption key value =
    match key with
    | .category => { f with category := (value.map ofValues.lowered).or f.category }
    | .domain => { f with domain := (value.map ofValues.lowered).or f.domain }
    | .platform => { f with platform := (value.map ofValues.lowered).or f.platform }
    | .channel | .author => { f with creator := (value.map String.ofList).or f.creator }
    | .repo => { f with repo := (value.map ofValues.lowered).or f.repo }
    | .type => { f with contentType := (value.map ofValues.lowered).or f.contentType }
    | .hasImage => { f with hasImage := (value.map ofValues.isYes).or f.hasImage }
    | .playlist => { f with playlist := (value.map String.ofList).or f.playlist }
    | .accessed => { f with accessed := (value.map ofValues.isYes).or f.accessed }
    | .stale => { f with stale := (value.map ofValues.isYes).or f.stale }
    | .enriched => { f with enriched := (value.map ofValues.isYes).or f.enriched }
    | .dead => { f with dead := (value.map ofValues.isYes).or f.dead }
    | .folder => { f with folder := (value.map ofValues.lowered).or f.folder } := by
  cases key <;> cases value <;> rfl

/-- The values of all keys, set one after the other. -/
theorem foldl_setOption (value : FilterKey → Option (List Char)) :
    FilterKey.all.foldl (fun f key => f.setOption key (value key)) {} = ofValues value := by
  simp only [FilterKey.all, List.foldl_cons, List.foldl_nil, setOption_eq, ofValues, Option.or_none, Option.map_or]

end SpecialFilters

section Reading

variable {f : SpecialFilters} {done : List FilterKey} {ts : List SearchToken}

/-- **A key that is looked for takes its first filter out of a line.** -/
theorem takeKey_line {key : FilterKey} (hdone : key ∉ done) :
    SpecialFilters.takeKey (f, line SearchToken.chars (struck done [] ts)) key =
      (f.setOption key (firstValue key ts), line SearchToken.chars (struck (key :: done) [] ts)) := by
  have hcut := cutFirst_line (reads_recognizer key) unbroken_searchToken (struck done [] ts)
  rw [strikeFirst_struck hdone List.not_mem_nil] at hcut
  unfold SpecialFilters.takeKey
  cases hfirst : firstValue key ts with
  | none =>
    rw [hfirst] at hcut
    simp only [hcut, Option.map_none, SpecialFilters.setOption, struck_idle (Or.inl hfirst)]
  | some v =>
    rw [hfirst] at hcut
    simp only [hcut, Option.map_some, SpecialFilters.setOption]

theorem foldl_takeKey (ts : List SearchToken) : ∀ {keys done : List FilterKey} (f : SpecialFilters), keys.Nodup →
    (∀ key ∈ keys, key ∉ done) →
    keys.foldl SpecialFilters.takeKey (f, line SearchToken.chars (struck done [] ts)) =
      (keys.foldl (fun f key => f.setOption key (firstValue key ts)) f,
        line SearchToken.chars (struck (keys.reverse ++ done) [] ts))
  | [], _, _, _, _ => rfl
  | key :: keys, done, f, hnodup, hdone => by
    obtain ⟨hkey, hnodup⟩ := List.nodup_cons.mp hnodup
    have hdone' : ∀ key' ∈ keys, key' ∉ key :: done := by
      intro key' hmem hcons
      rcases List.mem_cons.mp hcons with rfl | hcons
      · exact hkey hmem
      · exact hdone key' (List.mem_cons_of_mem key hmem) hcons
    rw [List.foldl_cons, takeKey_line (hdone key List.mem_cons_self), foldl_takeKey ts _ hnodup hdone',
      List.reverse_cons, List.append_assoc]
    rfl

/-- The tokens that are no filters, or whose key came before; the keys in `seen` came before the first of them. -/
def repeated (seen : List FilterKey) : List SearchToken → List SearchToken
  | [] => []
  | t :: ts =>
    match t.key? with
    | some key => if key ∈ seen then t :: repeated (key :: seen) ts else repeated (key :: seen) ts
    | none => t :: repeated seen ts

theorem reduceOption_struck (hdone : ∀ key, key ∈ done) (seen : List FilterKey) (ts : List SearchToken) :
    (struck done seen ts).reduceOption = repeated seen ts := by
  induction ts generalizing seen with
  | nil => rfl
  | cons t ts ih =>
    cases t with
    | word w => exact congrArg _ (ih seen)
    | filter key name value named admitted =>
      by_cases hseen : key ∈ seen <;>
        simp [struck, repeated, SearchToken.key?, hdone, hseen, ih, List.reduceOption_cons_of_some,
          List.reduceOption_cons_of_none]

/-- **Of each key the first filter of a line is set,** and the other tokens remain in their order. -/
theorem parse_tokens (ts : List SearchToken) :
    SpecialFilters.parse (String.ofList (Text.join [' '] (ts.map SearchToken.chars))) =
      (SpecialFilters.ofValues fun key => firstValue key ts,
        String.ofList (Text.join [' '] ((repeated [] ts).map SearchToken.chars))) := by
  have hline : Text.join [' '] (ts.map SearchToken.chars) = line SearchToken.chars (struck [] [] ts) := by
    rw [struck_nil, line, List.map_map]
    rfl
  have hall : ∀ key, key ∈ FilterKey.all.reverse ++ [] := by simp [FilterKey.mem_all]
  have hkeys := foldl_takeKey ts {} (show FilterKey.all.Nodup by decide) fun _ _ => List.not_mem_nil
  rw [SpecialFilters.parse, String.toList_ofList, hline, SpecialFilters.parseChars, hkeys,
    SpecialFilters.foldl_setOption fun key => firstValue key ts]
  simp only [squash_line unbroken_searchToken, reduceOption_struck hall]

example : SpecialFilters.parse "Type:Video cats type:music author:Ann" =
    ({ contentType := some "video", creator := some "Ann" }, "cats type:music") := by decide +kernel

end Reading

end Shelfmark.Query
