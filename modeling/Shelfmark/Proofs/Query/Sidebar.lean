import Shelfmark.Proofs.Query.Lines
import Shelfmark.Query.Sidebar

/-!
# Filters of the side bar

The text of the side bar is a line of filters, phrases for dead and stale bookmarks, and plain words (`SidebarToken`).
Each key takes all its filters out of the line at once (`takeKey_kept`, `foldl_takeKey_kept`), then the phrases are
taken out (`takePhrases_kept`), and the words are left (`parseChars_line`, `parse_sidebar`).
-/

namespace Shelfmark.Query

/-! ## Tokens -/

/-- A token of the side bar: a filter, whose key may have any case, a phrase for dead or for stale bookmarks in any
case, or a plain word. -/
inductive SidebarToken
  | filter (key : SidebarKey) (name value : List Char) (named : name.map Char.toLower = key.word.toList)
      (bare : IsBare value)
  | dead (phrase : List Char) (listed : phrase.map Char.toLower ∈ deadPhrases)
  | stale (phrase : List Char) (listed : phrase.map Char.toLower ∈ stalePhrases)
  | word (w : PlainWord)

namespace SidebarToken

/-- A token as it is written. -/
def chars : SidebarToken → List Char
  | filter _ name value _ _ => name ++ ':' :: value
  | dead phrase _ => phrase
  | stale phrase _ => phrase
  | word w => w.chars

/-- The value of a filter with a key. -/
def value? (key : SidebarKey) : SidebarToken → Option (List Char)
  | filter key' _ value _ _ => if key' = key then some value else none
  | _ => none

/-- A phrase for dead bookmarks. -/
def dead? : SidebarToken → Option Unit
  | dead _ _ => some ()
  | _ => none

/-- A phrase for stale bookmarks. -/
def stale? : SidebarToken → Option Unit
  | stale _ _ => some ()
  | _ => none

/-- A plain word. -/
def word? : SidebarToken → Option (List Char)
  | word w => some w.chars
  | _ => none

end SidebarToken

/-! ## Recognizing tokens -/

theorem SidebarKey.mem_all (key : SidebarKey) : key ∈ all := by
  cases key <;> decide

theorem SidebarKey.allSmall_word (key : SidebarKey) : AllSmall key.word.toList := by
  cases key <;> decide

theorem SidebarKey.word_inj {key key' : SidebarKey} : key.word.toList = key'.word.toList ↔ key = key' := by
  have hfind : ∀ key : SidebarKey, all.find? (fun k => k.word.toList == key.word.toList) = some key := by
    intro key
    cases key <;> rfl
  exact word_inj_of_find hfind

section Phrases

variable {name value phrase rest k v : List Char} {phrases others : List (List Char)}

/-- What stands before the colon of a phrase. -/
def heads : List (List Char) := [['d', 'e', 'a', 'd'], ['s', 't', 'a', 'l', 'e'], ['i', 's']]

theorem keyChars_phrases : ∀ w ∈ deadPhrases ++ stalePhrases, AllKeyChars w := by decide

theorem allSmall_heads : ∀ k ∈ heads, AllSmall k := by decide

theorem heads_ne_word (key : SidebarKey) : key.word.toList ∉ heads := by
  cases key <;> decide

theorem split_phrases : ∀ w ∈ deadPhrases ++ stalePhrases, w.takeWhile (· != ':') ∈ heads ∧
    w = w.takeWhile (· != ':') ++ ':' :: (w.dropWhile (· != ':')).tail := by decide

theorem exists_head {w : List Char} (hw : w ∈ deadPhrases ++ stalePhrases) : ∃ k ∈ heads, ∃ v, w = k ++ ':' :: v :=
  ⟨_, (split_phrases w hw).1, _, (split_phrases w hw).2⟩

/-- A phrase in any case has its colon where the phrase has it. -/
theorem split_lowered (h : phrase.map Char.toLower = k ++ ':' :: v) :
    ∃ name behind, phrase = name ++ ':' :: behind ∧ name.map Char.toLower = k := by
  obtain ⟨name, tail, rfl, hname, htail⟩ := List.map_eq_append_iff.mp h
  obtain ⟨c, behind, rfl, hc, _⟩ := List.map_eq_cons_iff.mp htail
  have hascii : c.toNat < 128 := ascii_of_toLower (hc ▸ by decide)
  have hsame := sameLetter_toLower hascii
  rw [hc] at hsame
  cases sameLetter_colon hsame
  exact ⟨name, behind, rfl, hname⟩

/-- A phrase opens with no key of a filter. -/
theorem not_opensWith_phrase (key : SidebarKey) (listed : phrase.map Char.toLower ∈ deadPhrases ++ stalePhrases) :
    ¬OpensWith key.word.toList (phrase ++ rest) := by
  obtain ⟨k, hk, v, hv⟩ := exists_head listed
  obtain ⟨name, behind, rfl, hname⟩ := split_lowered hv
  rw [List.append_assoc]
  intro h
  have he := eq_of_opensWith key.allSmall_word (allSmall_heads k hk) hname h
  exact heads_ne_word key (he ▸ hk)

variable (hphrases : phrases ⊆ deadPhrases ++ stalePhrases) (hrest : AtBreak rest)
include hphrases

theorem flagged_filter {key : SidebarKey} (named : name.map Char.toLower = key.word.toList) :
    flagged phrases none (name ++ ':' :: v ++ rest) = none := by
  rw [List.append_assoc, List.cons_append]
  refine flagged_eq_none (fun w hw => exists_head (hphrases hw)) fun k hk h => ?_
  have he := eq_of_opensWith (allSmall_heads k hk) key.allSmall_word named h
  exact heads_ne_word key (he ▸ hk)

include hrest

theorem flagged_plain (hcolon : ':' ∉ name) : flagged phrases none (name ++ rest) = none :=
  flagged_eq_none (fun _ hw => exists_head (hphrases hw)) fun k hk =>
    not_opensWith_plain (allSmall_heads k hk) hcolon hrest

theorem flagged_listed (listed : phrase.map Char.toLower ∈ phrases)
    (hothers : ∀ v ∈ phrases, ∀ w ∈ phrases, v <+: w → v = w) :
    flagged phrases none (phrase ++ rest) = some ((), phrase.length) := by
  have hread := oneOf?_written (fun w hw => keyChars_phrases w (hphrases hw)) listed rfl
    (fun v hv => hothers v hv _ listed) hrest
  simp [flagged, atStart, hread]

theorem flagged_unlisted (listed : phrase.map Char.toLower ∈ others) (hlisted : others ⊆ deadPhrases ++ stalePhrases)
    (hothers : ∀ v ∈ phrases, ∀ w ∈ others, ¬v <+: w) : flagged phrases none (phrase ++ rest) = none := by
  have hascii := ascii_of_lowered (keyChars_phrases _ (hlisted listed)) rfl
  have hread := oneOf?_eq_none (fun w hw => keyChars_phrases w (hphrases hw)) hascii
    (fun v hv => hothers v hv _ listed) hrest
  simp [flagged, hread]

end Phrases

theorem dead_subset : deadPhrases ⊆ deadPhrases ++ stalePhrases := List.subset_append_left ..

theorem stale_subset : stalePhrases ⊆ deadPhrases ++ stalePhrases := List.subset_append_right ..

theorem unbroken_sidebarToken : Unbroken SidebarToken.chars := by
  intro t
  cases t with
  | filter key name value named bare =>
    exact ⟨by simp [SidebarToken.chars], isBlank_filter key.allSmall_word named fun c hc => (bare.2 c hc).1⟩
  | dead phrase listed =>
    refine ⟨?_, fun c hc => isBlank_of_lowered (keyChars_phrases _ (dead_subset listed)) rfl hc⟩
    rintro rfl
    exact absurd listed (by decide)
  | stale phrase listed =>
    refine ⟨?_, fun c hc => isBlank_of_lowered (keyChars_phrases _ (stale_subset listed)) rfl hc⟩
    rintro rfl
    exact absurd listed (by decide)
  | word w => exact ⟨w.bare.1, fun c hc => (w.bare.2 c hc).1⟩

/-- **The filters of a key, and no other tokens, are recognized by it.** -/
theorem reads_keyed (key : SidebarKey) :
    Reads (keyed key.word.toList value?) SidebarToken.chars (SidebarToken.value? key) where
  anchored := anchored_keyed _ _
  blank cs := keyed_eq_none (not_opensWith_plain key.allSmall_word List.not_mem_nil (atBreak_blank cs))
  token t rest hrest := by
    cases t with
    | filter key' name value named bare =>
      have hfound := keyed_filter key.allSmall_word key'.allSmall_word named fun _ => value?_bare bare hrest
      simp only [SidebarKey.word_inj] at hfound
      show keyed key.word.toList Query.value? none (name ++ ':' :: value ++ rest) = _
      rw [hfound]
      by_cases hkey : key = key' <;> simp [SidebarToken.value?, SidebarToken.chars, hkey, eq_comm]
    | dead phrase listed => exact keyed_eq_none (not_opensWith_phrase key (dead_subset listed))
    | stale phrase listed => exact keyed_eq_none (not_opensWith_phrase key (stale_subset listed))
    | word w => exact keyed_eq_none (not_opensWith_plain key.allSmall_word w.noColon hrest)

/-- **The phrases for dead bookmarks, and no other tokens, are recognized as such.** -/
theorem reads_dead : Reads (flagged deadPhrases) SidebarToken.chars SidebarToken.dead? where
  anchored := anchored_flagged _
  blank cs := flagged_plain dead_subset (atBreak_blank cs) List.not_mem_nil
  token t rest hrest := by
    cases t with
    | filter key name value named bare => exact flagged_filter dead_subset named
    | dead phrase listed => exact flagged_listed dead_subset hrest listed (by decide)
    | stale phrase listed => exact flagged_unlisted dead_subset hrest listed stale_subset (by decide)
    | word w => exact flagged_plain dead_subset hrest w.noColon

/-- **The phrases for stale bookmarks, and no other tokens, are recognized as such.** -/
theorem reads_stale : Reads (flagged stalePhrases) SidebarToken.chars SidebarToken.stale? where
  anchored := anchored_flagged _
  blank cs := flagged_plain stale_subset (atBreak_blank cs) List.not_mem_nil
  token t rest hrest := by
    cases t with
    | filter key name value named bare => exact flagged_filter stale_subset named
    | dead phrase listed => exact flagged_unlisted stale_subset hrest listed dead_subset (by decide)
    | stale phrase listed => exact flagged_listed stale_subset hrest listed (by decide)
    | word w => exact flagged_plain stale_subset hrest w.noColon

/-! ## Reading a line -/

namespace ActiveFilters

/-- The filters of some values; those of domain go before those of site. -/
def ofValues (values : SidebarKey → List String) : ActiveFilters where
  domains := values .domain ++ values .site
  folders := values .folder
  topics := values .topic
  types := values .type
  tags := values .tag

/-- The filters with one value of one key. -/
def single (key : SidebarKey) (text : String) : ActiveFilters := ofValues fun k => if k = key then [text] else []

/-- The values of all keys, added one after the other. -/
theorem foldl_addValues (values : SidebarKey → List String) :
    SidebarKey.all.foldl (fun f key => f.addValues key (values key)) {} = ofValues values := by
  simp [SidebarKey.all, addValues, ofValues]

end ActiveFilters

section Reading

variable {f : ActiveFilters} {kept : SidebarToken → Bool} {ts : List SidebarToken}

/-- The values of the filters with a key, in lower case. -/
def valuesOf (key : SidebarKey) (ts : List SidebarToken) : List String :=
  (ts.filterMap (SidebarToken.value? key)).map fun v => String.ofList (Text.lowerChars v)

/-- The filters of some tokens. -/
def sidebarFilters (ts : List SidebarToken) : ActiveFilters :=
  { ActiveFilters.ofValues fun key => valuesOf key ts with
    deadLinks := ts.any fun t => t.dead?.isSome
    stale := ts.any fun t => t.stale?.isSome }

/-- **A key takes all its filters out of a line.** -/
theorem takeKey_kept {key : SidebarKey} (hkept : ∀ t, (SidebarToken.value? key t).isSome = true → kept t = true) :
    ActiveFilters.takeKey (f, line SidebarToken.chars (ts.map (Option.guard kept))) key =
      (f.addValues key (valuesOf key ts),
        line SidebarToken.chars (ts.map (Option.guard fun t => kept t && (SidebarToken.value? key t).isNone))) := by
  simp only [ActiveFilters.takeKey, tokensOf_kept (reads_keyed key) unbroken_sidebarToken hkept,
    fill_kept (reads_keyed key) unbroken_sidebarToken, valuesOf]

/-- A filter has one key. -/
theorem value?_isNone {key key' : SidebarKey} (hne : key ≠ key') {t : SidebarToken}
    (h : (SidebarToken.value? key' t).isSome = true) : (SidebarToken.value? key t).isNone = true := by
  cases t with
  | filter key'' name value named bare =>
    have hkey : key'' = key' := by
      by_contra hother
      simp [SidebarToken.value?, hother] at h
    simp [SidebarToken.value?, hkey, hne.symm]
  | dead | stale | word => rfl

theorem foldl_takeKey_kept (ts : List SidebarToken) : ∀ {keys : List SidebarKey} (kept : SidebarToken → Bool)
    (f : ActiveFilters), keys.Nodup →
    (∀ key ∈ keys, ∀ t, (SidebarToken.value? key t).isSome = true → kept t = true) →
    keys.foldl ActiveFilters.takeKey (f, line SidebarToken.chars (ts.map (Option.guard kept))) =
      (keys.foldl (fun f key => f.addValues key (valuesOf key ts)) f,
        line SidebarToken.chars
          (ts.map (Option.guard fun t => kept t && keys.all fun key => (SidebarToken.value? key t).isNone)))
  | [], kept, f, _, _ => by simp
  | key :: keys, kept, f, hnodup, hkept => by
    obtain ⟨hkey, hnodup⟩ := List.nodup_cons.mp hnodup
    rw [List.foldl_cons, takeKey_kept (hkept key List.mem_cons_self), foldl_takeKey_kept ts _ _ hnodup]
    · simp only [List.foldl_cons, List.all_cons, Bool.and_assoc]
    · intro key' hmem t ht
      have hne : key ≠ key' := fun he => hkey (he ▸ hmem)
      rw [hkept key' (List.mem_cons_of_mem key hmem) t ht, value?_isNone hne ht]
      rfl

/-- **The phrases of a kind are taken out of a line.** -/
theorem takePhrases_kept {phrases : List (List Char)} {g : SidebarToken → Option Unit} (ts : List SidebarToken)
    (kept : SidebarToken → Bool) (hr : Reads (flagged phrases) SidebarToken.chars g)
    (hkept : ∀ t, (g t).isSome = true → kept t = true) :
    ActiveFilters.takePhrases phrases (line SidebarToken.chars (ts.map (Option.guard kept))) =
      (ts.any fun t => (g t).isSome,
        line SidebarToken.chars (ts.map (Option.guard fun t => kept t && (g t).isNone))) := by
  have hany : (!(ts.filterMap g).isEmpty) = ts.any fun t => (g t).isSome := by
    induction ts with
    | nil => rfl
    | cons t ts ih =>
      rw [List.any_cons, ← ih, List.filterMap_cons]
      cases g t <;> rfl
  simp only [ActiveFilters.takePhrases, tokensOf_kept hr unbroken_sidebarToken hkept,
    fill_kept hr unbroken_sidebarToken, hany]

/-- The tokens that are left when filters and phrases are taken out are the words. -/
theorem map_chars_filter (ts : List SidebarToken) :
    (ts.filter fun t => ((true && SidebarKey.all.all fun key => (SidebarToken.value? key t).isNone) &&
      t.dead?.isNone) && t.stale?.isNone).map SidebarToken.chars = ts.filterMap SidebarToken.word? := by
  induction ts with
  | nil => rfl
  | cons t ts ih =>
    rw [List.filter_cons, List.filterMap_cons, ← ih]
    cases t with
    | filter key name value named bare =>
      have hkey : (SidebarKey.all.all fun key' =>
          (SidebarToken.value? key' (.filter key name value named bare)).isNone) = false := by
        cases key <;> rfl
      rw [hkey]
      rfl
    | dead | stale | word => rfl

/-- **A line of the side bar is read token by token.** -/
theorem parseChars_line (ts : List SidebarToken) :
    ActiveFilters.parseChars (Text.join [' '] (ts.map SidebarToken.chars)) =
      (sidebarFilters ts, Text.join [' '] (ts.filterMap SidebarToken.word?)) := by
  have hline : Text.join [' '] (ts.map SidebarToken.chars) =
      line SidebarToken.chars (ts.map (Option.guard fun _ => true)) := by
    rw [line, List.map_map]
    rfl
  have hkeys := foldl_takeKey_kept ts (fun _ => true) {} (show SidebarKey.all.Nodup by decide) fun _ _ _ _ => rfl
  have hdead := takePhrases_kept ts
    (fun t => true && SidebarKey.all.all fun key => (SidebarToken.value? key t).isNone) reads_dead fun t ht => by
      cases t with
      | dead => rfl
      | filter | stale | word => cases ht
  have hstale := takePhrases_kept ts
    (fun t => (true && SidebarKey.all.all fun key => (SidebarToken.value? key t).isNone) && t.dead?.isNone)
    reads_stale fun t ht => by
      cases t with
      | stale => rfl
      | filter | dead | word => cases ht
  rw [hline, ActiveFilters.parseChars, hkeys]
  simp only [hdead, hstale, ActiveFilters.foldl_addValues fun key => valuesOf key ts, squash_line unbroken_sidebarToken,
    reduceOption_guard, map_chars_filter]
  rfl

end Reading

/-- **Every token of the side bar is read.**  The filters of a key have its values in lower case and in order, dead and
stale bookmarks are asked for if one of their phrases occurs, and the plain words are left. -/
theorem parse_sidebar (ts : List SidebarToken) :
    ActiveFilters.parse (String.ofList (Text.join [' '] (ts.map SidebarToken.chars))) =
      (sidebarFilters ts, String.ofList (Text.join [' '] (ts.filterMap SidebarToken.word?))) := by
  rw [ActiveFilters.parse, String.toList_ofList, parseChars_line]

end Shelfmark.Query
