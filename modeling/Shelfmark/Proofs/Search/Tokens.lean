import Shelfmark.Proofs.Query.Quoted
import Shelfmark.Proofs.Search.Named
import Shelfmark.Proofs.Time.Calendar

/-!
# Filters of one token

A single filter of a query sets its key and no other (`parse_single`).

- An answer to a key of yes and no keeps the bookmarks of which the fact it asks for is as true (`answered_fact`), so
  yes and no part every list (`answers_part`).  Only staleness is no such fact: asking for bookmarks that are not stale
  asks for nothing (`answered_stale_no`, `not_answers_part`).
- The query and the side bar know some tokens both, and keep the same bookmarks for them (`special_asks`, `active_asks`,
  `apply_shared`): a value that is lowercased once more, or split at bars that it does not have, is the same value.
-/

namespace Shelfmark.Query

variable {key : FilterKey} {v : String} {fact : Bookmark → Except Fault Bool} {now : Timestamp} {staleDays : Int}
  {bs xs : List Bookmark} {b : Bookmark} {limit : Except Fault Timestamp}

/-! ## Reading one filter -/

namespace SpecialFilters

/-- A single filter is set among none. -/
theorem single_eq_set (key : FilterKey) (v : List Char) : single key v = ({} : SpecialFilters).set key v := by
  cases key <;> rfl

/-- **A single filter sets its key,** and nothing remains of the query. -/
theorem parse_single (h : key.kind.Admits v.toList) : parse (key.word ++ ":" ++ v) = (single key v.toList, "") := by
  have hnamed := key.allSmall_word.lowered
  have htext : (key.word ++ ":" ++ v).toList =
      Text.join [' '] ([.filter key key.word.toList v.toList hnamed h].map SearchToken.chars) := by
    simp [Text.join, SearchToken.chars]
  have hline := parse_tokens [.filter key key.word.toList v.toList hnamed h]
  rw [← htext, String.ofList_toList] at hline
  rw [hline]
  cases key <;> rfl

/-- Conditions that are all known hold together or not. -/
theorem allM_known (ks : List Bool) : (ks.map Except.ok).allM id = (.ok (ks.all id) : Except Fault Bool) := by
  induction ks with
  | nil => rfl
  | cons k ks ih => cases k <;> [rfl; exact ih]

/-- Where all other conditions hold, one condition decides. -/
theorem allM_single (c : Except Fault Bool) : ∀ before behind : Nat,
    (List.replicate before (Except.ok true) ++ c :: List.replicate behind (Except.ok true)).allM id = c
  | 0, behind => by
    have hbehind : (List.replicate behind (.ok true : Except Fault Bool)).allM id = .ok true := by
      simpa [List.map_replicate] using allM_known (List.replicate behind true)
    rw [List.replicate_zero, List.nil_append, List.allM_cons, hbehind]
    rcases c with e | _ | _ <;> rfl
  | before + 1, behind => by
    rw [List.replicate_succ, List.cons_append, List.allM_cons, allM_single c before behind]
    rfl

/-- A filter that asks for no age and for no part of extras or metadata can decide. -/
theorem keeps_of_known {v : List Char} (hkey : key ∉ [.stale, .repo, .hasImage, .playlist]) :
    (single key v).keeps limit b = .ok ((single key v).fitsPlace b && ((single key v).fitsContent b &&
      textHolds (single key v).contentType (typeFits b.contentType))) := by
  have hconditions : (single key v).conditions limit b = [(single key v).fitsPlace b, true,
      (single key v).fitsContent b, true, textHolds (single key v).contentType (typeFits b.contentType), true,
      true].map Except.ok := by
    cases key with
    | stale | repo | hasImage | playlist => exact absurd (by decide) hkey
    | _ => rfl
  rw [keeps, hconditions, allM_known]
  simp

end SpecialFilters

/-! ## Yes and no -/

/-- An answer to a key of yes and no. -/
def answer (yes : Bool) : String := if yes then "yes" else "no"

/-- The bookmarks that a query with one answer keeps. -/
def answered (key : FilterKey) (yes : Bool) (now : Timestamp) (staleDays : Int) (bs : List Bookmark) :
    Except Fault (List Bookmark) :=
  (SpecialFilters.parse (key.word ++ ":" ++ answer yes)).1.apply now staleDays bs

/-- The fact that a key of yes and no asks for, if it is one that is known of a bookmark at any time, or never. -/
def FilterKey.fact? : FilterKey → Option (Bookmark → Except Fault Bool)
  | .hasImage => some (·.hasImage)
  | .accessed => some fun b => .ok (decide (0 < b.accessCount))
  | .enriched => some fun b => .ok b.isEnriched
  | .dead => some fun b => .ok b.isDead
  | _ => none

theorem parse_answer (hkey : key.kind = .yesNo) (yes : Bool) :
    (SpecialFilters.parse (key.word ++ ":" ++ answer yes)).1 = SpecialFilters.single key (answer yes).toList := by
  have hadmits : key.kind.Admits (answer yes).toList := by
    rw [hkey]
    cases yes with
    | true => exact Or.inl rfl
    | false => exact Or.inr rfl
  rw [SpecialFilters.parse_single hadmits]

theorem answered_eq (hkey : key.kind = .yesNo) (yes : Bool) : answered key yes now staleDays bs =
    (SpecialFilters.single key (answer yes).toList).apply now staleDays bs := by
  rw [answered, parse_answer hkey]

theorem kind_of_fact (hfact : key.fact? = some fact) : key.kind = .yesNo := by
  cases key with
  | hasImage | accessed | enriched | dead => rfl
  | _ => cases hfact

/-- The answer is read as it is meant. -/
theorem lowered_answer (yes : Bool) : (Text.lowerChars (answer yes).toList == ['y', 'e', 's']) = yes := by
  cases yes <;> rfl

/-- A key that asks for a fact keeps the bookmarks of which it is as true as the answer says. -/
theorem keeps_answer (hfact : key.fact? = some fact) (yes : Bool) :
    (SpecialFilters.single key (answer yes).toList).keeps limit b = (fact b).map (· == yes) := by
  by_cases hkey : key = .hasImage
  · subst hkey
    cases hfact
    have hset : (SpecialFilters.single .hasImage (answer yes).toList).hasImage = some yes :=
      congrArg some (lowered_answer yes)
    have hone : (SpecialFilters.single .hasImage (answer yes).toList).keeps limit b =
        SpecialFilters.answerFound (SpecialFilters.single .hasImage (answer yes).toList).hasImage b.hasImage :=
      SpecialFilters.allM_single _ 5 1
    rw [hone, hset]
    rfl
  · have hknown : key ∉ [.stale, .repo, .hasImage, .playlist] := by
      rintro hmem
      cases key <;> simp_all [FilterKey.fact?]
    rw [SpecialFilters.keeps_of_known hknown]
    cases key <;> cases hfact <;>
      simp_all [SpecialFilters.fitsPlace, SpecialFilters.fitsContent, SpecialFilters.single_eq_set, SpecialFilters.set,
        SpecialFilters.textHolds, lowered_answer, Except.map]

/-- Whether bookmarks are stale is asked with yes, and not asked at all with no. -/
theorem keeps_stale (yes : Bool) : (SpecialFilters.single .stale (answer yes).toList).keeps limit b =
    if yes then limit.map b.isStale else .ok true := by
  have hset : (SpecialFilters.single .stale (answer yes).toList).stale = some yes := congrArg some (lowered_answer yes)
  have hone : (SpecialFilters.single .stale (answer yes).toList).keeps limit b =
      if (SpecialFilters.single .stale (answer yes).toList).stale == some true then limit.map b.isStale else .ok true :=
    SpecialFilters.allM_single _ 1 5
  rw [hone, hset]
  cases yes <;> rfl

/-- **An answer to a key that asks for a fact** keeps the bookmarks of which the fact is as true, if it is known of all
of them. -/
theorem answered_fact (hfact : key.fact? = some fact) (hknown : ∀ b ∈ bs, Decided (fact b)) (yes : Bool) :
    answered key yes now staleDays bs = .ok (bs.filter fun b => isYes (fact b) == yes) := by
  rw [answered_eq (kind_of_fact hfact)]
  refine keepWhere_eq_filter fun b hb => ?_
  rw [keeps_answer hfact, (hknown b hb).eq_ok]
  rfl

/-- Where a fact is not known of one of the bookmarks there is no answer. -/
theorem answered_fact_fails (hfact : key.fact? = some fact) (hb : b ∈ bs) (hunknown : ¬Decided (fact b)) (yes : Bool) :
    ∃ e, answered key yes now staleDays bs = .error e := by
  rw [answered_eq (kind_of_fact hfact)]
  refine keepWhere_fails hb ?_
  rw [keeps_answer hfact]
  rintro ⟨k, hk⟩
  obtain ⟨k', hk', _⟩ := map_eq_ok.mp hk
  exact hunknown ⟨k', hk'⟩

theorem answered_stale_no : answered .stale false now staleDays bs = .ok bs := by
  have hall : bs.filter (fun _ => true) = bs := List.filter_eq_self.mpr fun _ _ => rfl
  rw [answered_eq rfl, SpecialFilters.apply, keepWhere_eq_filter fun b _ => keeps_stale false, hall]

theorem answered_stale_yes {limit : Timestamp} (hlimit : now.daysBefore staleDays = .ok limit) :
    answered .stale true now staleDays bs = .ok (bs.filter fun b => b.isStale limit) := by
  rw [answered_eq rfl, SpecialFilters.apply, hlimit]
  exact keepWhere_eq_filter fun b _ => keeps_stale true

/-- Outside the calendar no bookmark can be asked whether it is stale. -/
theorem answered_stale_fails {e : Fault} (hlimit : now.daysBefore staleDays = .error e) (hbs : bs ≠ []) :
    answered .stale true now staleDays bs = .error e := by
  obtain ⟨b, rest, rfl⟩ := List.exists_cons_of_ne_nil hbs
  have hfirst : (SpecialFilters.single .stale (answer true).toList).keeps (.error e) b = .error e := keeps_stale true
  rw [answered_eq rfl, SpecialFilters.apply, hlimit, keepWhere, hfirst]
  rfl

/-- Two selections from a list have no id in common and are together the whole list. -/
structure Parts (bs xs ys : List Bookmark) : Prop where
  left : xs.Sublist bs
  right : ys.Sublist bs
  disjoint : (xs.map (·.id)).Disjoint (ys.map (·.id))
  whole : (xs ++ ys).Perm bs

/-- Of different bookmarks, those with a fact and those without part the list. -/
theorem parts_filter (hids : (bs.map (·.id)).Nodup) (fact : Bookmark → Bool) :
    Parts bs (bs.filter fact) (bs.filter fun b => !fact b) := by
  have hwhole := List.filter_append_perm fact bs
  refine ⟨List.filter_sublist, List.filter_sublist, ?_, hwhole⟩
  have hnodup := ((hwhole.map (·.id)).nodup_iff).mpr hids
  rw [List.map_append] at hnodup
  exact fun _ hx hy => (List.nodup_append.mp hnodup).2.2 _ hx _ hy rfl

/-- Beside the whole list only the empty selection is a part of it. -/
theorem parts_self_iff : Parts bs xs bs ↔ xs = [] := by
  constructor
  · intro h
    have hlength := h.whole.length_eq
    rw [List.length_append] at hlength
    exact List.eq_nil_of_length_eq_zero (by omega)
  · rintro rfl
    exact ⟨List.nil_sublist bs, List.Sublist.refl bs, fun _ hx => absurd hx List.not_mem_nil, List.Perm.refl bs⟩

/-- **The answers to a key of yes and no.**  Those to a key that asks for a fact part every list of different bookmarks
of which it is known; only whether a bookmark has a picture may not be, where extras or metadata are no objects, and
then neither question is answered.  Asking for bookmarks that are not stale keeps all of them, so these answers part a
list exactly if no bookmark of it is stale; and outside the calendar there is no answer to yes. -/
theorem answers_part (hids : (bs.map (·.id)).Nodup) (hkey : key.kind = .yesNo) :
    (key ≠ .stale → ∃ fact, key.fact? = some fact ∧
      (key ≠ .hasImage ∨ (∀ b ∈ bs, b.Legible) → ∀ b ∈ bs, Decided (fact b)) ∧
      ((∀ b ∈ bs, Decided (fact b)) →
        answered key true now staleDays bs = .ok (bs.filter fun b => isYes (fact b)) ∧
        answered key false now staleDays bs = .ok (bs.filter fun b => !isYes (fact b)) ∧
        Parts bs (bs.filter fun b => isYes (fact b)) (bs.filter fun b => !isYes (fact b))) ∧
      ((¬∀ b ∈ bs, Decided (fact b)) → ∀ yes, ∃ e, answered key yes now staleDays bs = .error e)) ∧
    answered .stale false now staleDays bs = .ok bs ∧
    (∀ limit, now.daysBefore staleDays = .ok limit →
      answered .stale true now staleDays bs = .ok (bs.filter fun b => b.isStale limit) ∧
      (Parts bs (bs.filter fun b => b.isStale limit) bs ↔ ∀ b ∈ bs, b.isStale limit = false)) ∧
    ∀ e, now.daysBefore staleDays = .error e → bs ≠ [] → answered .stale true now staleDays bs = .error e := by
  refine ⟨fun hne => ?_, answered_stale_no, fun limit hlimit => ⟨answered_stale_yes hlimit, ?_⟩, fun e =>
    answered_stale_fails⟩
  · -- every other key of yes and no asks for a fact
    obtain ⟨fact, hfact⟩ : ∃ fact, key.fact? = some fact := by
      cases key with
      | hasImage | accessed | enriched | dead => exact ⟨_, rfl⟩
      | stale => exact absurd rfl hne
      | _ => cases hkey
    refine ⟨fact, hfact, fun hlegible b hb => ?_, fun hknown => ⟨?_, ?_, parts_filter hids _⟩, fun hunknown yes => ?_⟩
    · cases key with
      | hasImage =>
        cases hfact
        exact (hlegible.resolve_left (by simp) b hb).hasImage_ok
      | accessed | enriched | dead => cases hfact; exact decided_ok _
      | _ => cases hfact
    · simpa only [beq_true] using answered_fact hfact hknown true
    · simpa only [beq_false] using answered_fact hfact hknown false
    · simp only [Classical.not_forall] at hunknown
      obtain ⟨b, hb, hfails⟩ := hunknown
      exact answered_fact_fails hfact hb hfails yes
  · simp [parts_self_iff, List.filter_eq_nil_iff]

/-- A dead bookmark, and one of which nothing is known. -/
theorem answers_part_sample :
    let a : Bookmark := { id := "a", isAlive := some false }
    let b : Bookmark := { id := "b" }
    (([a, b].map (·.id)).Nodup ∧ FilterKey.dead.kind = .yesNo) ∧
      answered .dead true Timestamp.epoch 30 [a, b] = .ok [a] ∧
      answered .dead false Timestamp.epoch 30 [a, b] = .ok [b] ∧ Parts [a, b] [a] [b] := by
  intro a b
  have hids : ([a, b].map (·.id)).Nodup := by decide
  obtain ⟨hfacts, _⟩ := @answers_part .dead Timestamp.epoch 30 [a, b] hids rfl
  obtain ⟨fact, hfact, hlegible, hparts, _⟩ := hfacts (by decide)
  cases hfact
  obtain ⟨hyes, hno, hboth⟩ := hparts (hlegible (.inl (by decide)))
  exact ⟨⟨hids, rfl⟩, hyes, hno, hboth⟩

/-- A bookmark that was not opened for a year is kept by both answers. -/
theorem not_answers_part :
    let now : Timestamp := ⟨⟨1971, 1, 1, by decide⟩, 0, 0, by decide, by decide⟩
    let b : Bookmark := { id := "a", dateAdded := Timestamp.epoch }
    answered .stale true now 30 [b] = .ok [b] ∧ answered .stale false now 30 [b] = .ok [b] ∧ ¬Parts [b] [b] [b] := by
  intro now b
  obtain ⟨limit, hlimit⟩ : ∃ limit, now.daysBefore 30 = .ok limit :=
    (Timestamp.exists_daysBefore_iff (by decide)).mpr (by decide +kernel)
  have hbefore : b.dateAdded.lt limit = true := by
    rw [Timestamp.lt, (Timestamp.instant_of_daysBefore hlimit).1]
    decide +kernel
  have hstale : b.isStale limit = true := by
    rw [Bookmark.isStale, hbefore]
    rfl
  refine ⟨?_, answered_stale_no, by simp [parts_self_iff]⟩
  rw [answered_stale_yes hlimit]
  simp [hstale]

/-! ## Tokens of the query and of the side bar -/

/-- A token that a query and the side bar both know: a domain, a folder or one kind of content, or that dead or stale
bookmarks are asked for. -/
inductive SharedToken
  | domain (value : String) (bare : IsBare value.toList)
  | folder (value : String) (bare : IsBare value.toList)
  | type (value : String) (bare : IsBare value.toList) (noBar : '|' ∉ value.toList)
  | dead
  | stale

/-- A token as it is typed. -/
def SharedToken.text : SharedToken → String
  | domain value _ => "domain:" ++ value
  | folder value _ => "folder:" ++ value
  | type value _ _ => "type:" ++ value
  | dead => "dead:yes"
  | stale => "stale:yes"

/-- What a token asks of a bookmark. -/
def SharedToken.asks (limit : Except Fault Timestamp) (b : Bookmark) : SharedToken → Except Fault Bool
  | domain value _ => .ok (Text.contains (Text.lower b.domain) (Text.lower value))
  | folder value _ => .ok (Text.contains (Text.lower b.folderPath) (Text.lower value))
  | type value _ _ => .ok (Text.lower b.contentType == Text.lower value)
  | dead => .ok b.isDead
  | stale => limit.map b.isStale

@[simp] theorem textHolds_none (p : String → Bool) : SpecialFilters.textHolds none p = true := rfl

/-- A text that is not empty is none in lower case, and so it is asked for. -/
theorem textHolds_lowered (hbare : IsBare v.toList) (p : String → Bool) :
    SpecialFilters.textHolds (some (String.ofList (Text.lowerChars v.toList))) p = p (Text.lower v) := by
  have hempty : (Text.lower v).isEmpty = false := by
    rw [String.isEmpty_eq_false_iff, ne_eq, Text.lower_eq_empty]
    rintro rfl
    exact hbare.1 rfl
  show ((Text.lower v).isEmpty || p (Text.lower v)) = p (Text.lower v)
  rw [hempty, Bool.false_or]

/-- A kind of content that names no alternatives is looked for as it is. -/
theorem typeFits_of_bare (hbare : IsBare v.toList) (hbar : '|' ∉ v.toList) (contentType : String) :
    SpecialFilters.typeFits contentType (Text.lower v) = (Text.lower contentType == Text.lower v) := by
  -- a bar or a blank in lower case would be one in the value
  have hsplit : (Text.lower v).toList.splitOn '|' = [Text.lowerChars v.toList] := by
    rw [Text.toList_lower]
    exact List.splitOn_eq_singleton fun h => hbar (Text.mem_of_mem_lowerChars (by decide) h)
  have htrim : Text.trim (Text.lowerChars v.toList) = Text.lowerChars v.toList := by
    refine Text.trim_of_noBlank fun c hc => Bool.eq_false_iff.mpr fun hblank => ?_
    have hsign : Text.isSign c = true := by simp [Text.isSign, hblank]
    have hnone := (hbare.2 c (Text.mem_of_mem_lowerChars hsign hc)).1
    rw [hblank] at hnone
    cases hnone
  rw [SpecialFilters.typeFits, hsplit, List.map_singleton, htrim, Bool.eq_iff_iff]
  simp [Text.lower, String.ofList_inj]

/-- **A query with one of the tokens keeps what the token asks for.** -/
theorem special_asks (t : SharedToken) : (SpecialFilters.parse t.text).1.keeps limit b = t.asks limit b := by
  have hread : ∀ (key : FilterKey) {v : String} {asked : Bool}, key.kind.Admits v.toList →
      key ∉ [.stale, .repo, .hasImage, .playlist] →
      ((SpecialFilters.single key v.toList).fitsPlace b && ((SpecialFilters.single key v.toList).fitsContent b &&
        SpecialFilters.textHolds (SpecialFilters.single key v.toList).contentType
          (SpecialFilters.typeFits b.contentType))) = asked →
      (SpecialFilters.parse (key.word ++ ":" ++ v)).1.keeps limit b = .ok asked :=
    fun key _ _ hadmits hkey hfits => by
      rw [SpecialFilters.parse_single hadmits, SpecialFilters.keeps_of_known hkey, hfits]
  cases t with
  | domain v hbare =>
    refine hread .domain hbare (by decide) ?_
    simp [SpecialFilters.fitsPlace, SpecialFilters.fitsContent, SpecialFilters.single_eq_set, SpecialFilters.set,
      textHolds_lowered hbare]
  | folder v hbare =>
    refine hread .folder hbare (by decide) ?_
    simp [SpecialFilters.fitsPlace, SpecialFilters.fitsContent, SpecialFilters.single_eq_set, SpecialFilters.set,
      textHolds_lowered hbare]
  | type v hbare hbar =>
    refine hread .type hbare (by decide) ?_
    simp [SpecialFilters.fitsPlace, SpecialFilters.fitsContent, SpecialFilters.single_eq_set, SpecialFilters.set,
      textHolds_lowered hbare, typeFits_of_bare hbare hbar]
  | dead =>
    have hdead : (SharedToken.dead).text = FilterKey.dead.word ++ ":" ++ answer true := rfl
    rw [hdead, parse_answer rfl, keeps_answer rfl]
    show Except.ok (b.isDead == true) = _
    rw [beq_true]
    rfl
  | stale =>
    have hstale : (SharedToken.stale).text = FilterKey.stale.word ++ ":" ++ answer true := rfl
    rw [hstale, parse_answer rfl, keeps_stale]
    rfl

theorem parse_dead : ActiveFilters.parse "dead:yes" = ({ deadLinks := true }, "") := by rfl

theorem parse_stale : ActiveFilters.parse "stale:yes" = ({ stale := true }, "") := by rfl

/-- **The side bar with one of the tokens keeps what the token asks for.** -/
theorem active_asks (t : SharedToken) : (ActiveFilters.parse t.text).1.keeps limit b = t.asks limit b := by
  have hread : ∀ (key : SidebarKey) {v : String} {asked : Bool}, IsBare v.toList →
      (ActiveFilters.single key (Text.lower v)).fitsNames b = asked →
      (ActiveFilters.parse (key.word ++ ":" ++ v)).1.keeps limit b = .ok asked :=
    fun key _ _ hbare hfits => by rw [parse_filter hbare, keeps_single, hfits]
  cases t with
  | domain v hbare =>
    refine hread .domain hbare ?_
    simp [ActiveFilters.fitsNames, ActiveFilters.single, ActiveFilters.ofValues, ActiveFilters.oneOccurs,
      Text.lower_lower]
  | folder v hbare =>
    refine hread .folder hbare ?_
    simp [ActiveFilters.fitsNames, ActiveFilters.single, ActiveFilters.ofValues, ActiveFilters.oneOccurs,
      Text.lower_lower]
  | type v hbare hbar =>
    refine hread .type hbare ?_
    simp [ActiveFilters.fitsNames, ActiveFilters.single, ActiveFilters.ofValues, ActiveFilters.oneOccurs,
      Text.lower_lower]
  | dead =>
    have hranges : ({ deadLinks := true } : ActiveFilters).fitsRanges b = true := rfl
    have hnames : ({ deadLinks := true } : ActiveFilters).fitsNames b = b.isDead := by
      simp [ActiveFilters.fitsNames, ActiveFilters.oneOccurs]
    rw [SharedToken.text, parse_dead, ActiveFilters.keeps, hnames, hranges, SharedToken.asks]
    cases b.isDead <;> rfl
  | stale =>
    have hranges : ({ stale := true } : ActiveFilters).fitsRanges b = true := rfl
    have hnames : ({ stale := true } : ActiveFilters).fitsNames b = true := rfl
    rw [SharedToken.text, parse_stale, ActiveFilters.keeps, hnames, hranges, SharedToken.asks]
    simp only [Bool.and_true, if_true]

/-- **The query and the side bar agree on the tokens that both know**: either keeps what the token asks for. -/
theorem apply_shared (t : SharedToken) (now : Timestamp) (staleDays : Int) (bs : List Bookmark) :
    (SpecialFilters.parse t.text).1.apply now staleDays bs = (ActiveFilters.parse t.text).1.apply now staleDays bs ∧
      (ActiveFilters.parse t.text).1.apply now staleDays bs = keepWhere (t.asks (now.daysBefore staleDays)) bs := by
  have hspecial : (SpecialFilters.parse t.text).1.apply now staleDays bs =
      keepWhere (t.asks (now.daysBefore staleDays)) bs := keepWhere_congr fun b _ => special_asks t
  have hactive : (ActiveFilters.parse t.text).1.apply now staleDays bs =
      keepWhere (t.asks (now.daysBefore staleDays)) bs := keepWhere_congr fun b _ => active_asks t
  exact ⟨hspecial.trans hactive.symm, hactive⟩

end Shelfmark.Query
