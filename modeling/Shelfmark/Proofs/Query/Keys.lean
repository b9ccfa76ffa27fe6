import Mathlib.Data.List.Basic
import Mathlib.Data.List.Forall2
import Shelfmark.Proofs.Query.Pieces
import Shelfmark.Proofs.Text.Occurrences

/-!
# Keys and values

A key is a word in small letters; a text opens with it where the word, in any case, and a colon stand (`OpensWith`).

- A word is found at the front of a text where its letters stand there in any case (`afterWord?_eq_some`): a letter
  stands for both of its cases (`sameLetter_toLower`), and a colon only for itself (`sameLetter_colon`);
- what a key recognizes opens with it (`keyed_eq_some`), and a phrase with a colon in it is not recognized where nothing
  opens with what stands before the colon (`flagged_eq_none`);
- a text opens with one key at most (`eq_of_opensWith`), and with none if its first piece has no colon
  (`not_opensWith_plain`), so a filter is recognized by its own key alone (`keyed_filter`);
- a value is read up to the next blank (`value?_bare`), and one of some words as a whole (`oneOf?_written`).
-/

namespace Shelfmark.Query

/-! ## Signs -/

theorem isBlank_space : Text.isBlank ' ' = true := rfl

theorem isBlank_colon : Text.isBlank ':' = false := rfl

theorem isBlank_quote : Text.isBlank '"' = false := rfl

/-! ## Letters of any case -/

section Letters

variable {w c : Char} {ws vs cs name rest tail : List Char}

theorem bounds_of_isLower (hw : w.isLower = true) : 97 ≤ w.toNat ∧ w.toNat ≤ 122 := by
  have hval : (w.val ≥ 'a'.val && w.val ≤ 'z'.val) = true := hw
  simpa [UInt32.le_iff_toNat_le] using hval

theorem toLower_of_isLower (hw : w.isLower = true) : w.toLower = w := by
  obtain ⟨hlow, _⟩ := bounds_of_isLower hw
  unfold Char.toLower
  split
  · rename_i hupper
    have hbound : w.toNat ≤ 90 := by simpa [UInt32.le_iff_toNat_le] using hupper.2
    omega
  · rfl

/-- Only a character of ASCII has one as its lowercase. -/
theorem ascii_of_toLower (h : c.toLower.toNat < 128) : c.toNat < 128 := by
  unfold Char.toLower at h
  split at h
  · rename_i hupper
    have hbound : c.toNat ≤ 90 := by simpa [UInt32.le_iff_toNat_le] using hupper.2
    omega
  · exact h

theorem sameLetter_ascii : ∀ n < 128, Pattern.sameLetter false (Char.ofNat n).toLower.toNat n = true := by
  decide +kernel

theorem small_of_sameLetter : ∀ n < 26, ∀ m < 128, Pattern.sameLetter false (97 + n) m = true →
    (Char.ofNat m).toLower = Char.ofNat (97 + n) := by decide +kernel

/-- A letter stands for both of its cases. -/
theorem sameLetter_toLower (hc : c.toNat < 128) : Pattern.sameLetter false c.toLower.toNat c.toNat = true := by
  have h := sameLetter_ascii c.toNat hc
  rwa [Char.ofNat_toNat] at h

/-- No character beyond ASCII is lowercased to a colon. -/
theorem colon_lt_images : Text.lowerRuns.toList.all (fun (_, _, _, image) => 58 < image) = true := by
  decide +kernel

/-- **A colon stands only for itself.** -/
theorem sameLetter_colon (h : Pattern.sameLetter false 58 c.toNat = true) : c = ':' := by
  have hcased : Pattern.alsoCased 58 = [] := rfl
  have hself : Pattern.foldPoint false 58 = 58 := rfl
  have hlower : Pattern.foldPoint false c.toNat = 58 := by simpa [Pattern.sameLetter, hself, hcased] using h
  have hc : c.toNat = 58 := by
    unfold Pattern.foldPoint at hlower
    split at hlower
    · split at hlower
      · rename_i hupper
        simp only [Bool.and_eq_true, decide_eq_true_eq] at hupper
        omega
      · exact hlower
    · rename_i hascii
      rw [if_neg (by decide)] at hlower
      rcases Text.mapRuns_cases Text.lowerRuns c.toNat with hmap | ⟨_, _, _, image, hm, _, _, _, hmap⟩
      · omega
      · have himage := List.all_eq_true.mp colon_lt_images _ (Array.mem_toList_iff.mpr hm)
        simp only [decide_eq_true_eq] at himage
        omega
  rw [← Char.ofNat_toNat c, hc]

/-- A character of a key or a phrase: a small letter or a colon. -/
def IsKeyChar (w : Char) : Prop := w.isLower = true ∨ w = ':'

instance : DecidablePred IsKeyChar := fun _ => inferInstanceAs (Decidable (_ ∨ _))

/-- All characters of a text are those of keys and phrases. -/
def AllKeyChars (ws : List Char) : Prop := ∀ w ∈ ws, IsKeyChar w

-- decided by going through the text, not through all characters there are
instance : DecidablePred AllKeyChars := fun ws => List.decidableBAll IsKeyChar ws

/-- A character of a key stands for no other characters of ASCII than its two cases. -/
theorem toLower_of_sameLetter (hw : IsKeyChar w) (hc : c.toNat < 128)
    (h : Pattern.sameLetter false w.toNat c.toNat = true) : c.toLower = w := by
  rcases hw with hw | rfl
  · obtain ⟨hlow, hhigh⟩ := bounds_of_isLower hw
    have hn : w.toNat = 97 + (w.toNat - 97) := by omega
    rw [hn] at h
    have hlower := small_of_sameLetter (w.toNat - 97) (by omega) c.toNat hc h
    rwa [← hn, Char.ofNat_toNat, Char.ofNat_toNat] at hlower
  · rw [sameLetter_colon h]
    rfl

theorem IsKeyChar.ascii (hw : IsKeyChar w) : w.toNat < 128 := by
  rcases hw with hw | rfl
  · obtain ⟨_, hhigh⟩ := bounds_of_isLower hw
    omega
  · decide

/-- A text is a word with its letters in any case. -/
def SameWord : List Char → List Char → Prop :=
  List.Forall₂ fun w c => Pattern.sameLetter false w.toNat c.toNat = true

theorem ascii_of_lowered (hw : AllKeyChars ws) (h : name.map Char.toLower = ws) : ∀ c ∈ name, c.toNat < 128 :=
  fun _ hc => ascii_of_toLower (hw _ (h ▸ List.mem_map_of_mem hc)).ascii

theorem sameWord_of_lowered (hw : AllKeyChars ws) (h : name.map Char.toLower = ws) : SameWord ws name := by
  have hascii := ascii_of_lowered hw h
  subst h
  exact List.forall₂_map_left_iff.mpr (List.forall₂_same.mpr fun c hc => sameLetter_toLower (hascii c hc))

theorem SameWord.lowered (hw : AllKeyChars ws) (h : SameWord ws name) (hname : ∀ c ∈ name, c.toNat < 128) :
    name.map Char.toLower = ws := by
  induction h with
  | nil => rfl
  | cons hc _ ih =>
    rw [List.map_cons, toLower_of_sameLetter (hw _ List.mem_cons_self) (hname _ List.mem_cons_self) hc,
      ih (fun w h => hw w (List.mem_cons_of_mem _ h)) fun c h => hname c (List.mem_cons_of_mem _ h)]

theorem SameWord.toLower_mem (hw : AllKeyChars ws) (h : SameWord ws name) (hc : c.toNat < 128)
    (hmem : c ∈ name) : c.toLower ∈ ws := by
  induction h with
  | nil => cases hmem
  | cons hfirst _ ih =>
    rcases List.mem_cons.mp hmem with rfl | hmem
    · rw [toLower_of_sameLetter (hw _ List.mem_cons_self) hc hfirst]
      exact List.mem_cons_self
    · exact List.mem_cons_of_mem _ (ih (fun w h => hw w (List.mem_cons_of_mem _ h)) hmem)

theorem isBlank_keyChars : ∀ n < 128, IsKeyChar (Char.ofNat n).toLower → Text.isBlank (Char.ofNat n) = false := by
  decide +kernel

/-- There is no blank in a key, whatever the case of its letters. -/
theorem isBlank_of_lowered (hw : AllKeyChars ws) (h : name.map Char.toLower = ws) (hc : c ∈ name) :
    Text.isBlank c = false := by
  have hblank := isBlank_keyChars c.toNat (ascii_of_lowered hw h c hc)
  rw [Char.ofNat_toNat] at hblank
  exact hblank (hw _ (h ▸ List.mem_map_of_mem hc))

/-- All characters are small letters. -/
def AllSmall (ws : List Char) : Prop := ∀ w ∈ ws, w.isLower = true

instance : DecidablePred AllSmall := fun ws => List.decidableBAll (fun w : Char => w.isLower = true) ws

theorem AllSmall.keyChars (hw : AllSmall ws) : AllKeyChars ws := fun w h => Or.inl (hw w h)

theorem AllSmall.lowered (hw : AllSmall ws) : ws.map Char.toLower = ws :=
  (List.map_congr_left fun w h => toLower_of_isLower (hw w h)).trans (List.map_id' ws)

/-- There is no blank in a filter if there is none in its value. -/
theorem isBlank_filter (hw : AllSmall ws) (hname : name.map Char.toLower = ws)
    (hvalue : ∀ c ∈ cs, Text.isBlank c = false) : ∀ c ∈ name ++ ':' :: cs, Text.isBlank c = false := by
  intro c hc
  rcases List.mem_append.mp hc with hc | hc
  · exact isBlank_of_lowered hw.keyChars hname hc
  · rcases List.mem_cons.mp hc with rfl | hc
    · exact isBlank_colon
    · exact hvalue c hc

/-- What is no letter does not occur in a word. -/
theorem SameWord.notMem (hw : AllSmall ws) (h : SameWord ws name) (hc : c.toNat < 128)
    (hl : c.toLower.isLower = false) : c ∉ name := by
  intro hmem
  rw [hw _ (h.toLower_mem hw.keyChars hc hmem)] at hl
  cases hl

/-- **A word is found where its letters stand in any case.** -/
theorem afterWord?_eq_some : ∀ {ws cs : List Char},
    afterWord? ws cs = some rest ↔ ∃ name, cs = name ++ rest ∧ SameWord ws name
  | [], cs => by
    constructor
    · intro h
      cases h
      exact ⟨[], rfl, List.Forall₂.nil⟩
    · rintro ⟨name, rfl, h⟩
      cases h
      rfl
  | w :: ws, [] => by
    constructor
    · intro h
      cases h
    · rintro ⟨name, hcs, h⟩
      cases h
      cases hcs
  | w :: ws, c :: cs => by
    rw [afterWord?]
    split
    · rename_i hc
      rw [afterWord?_eq_some]
      constructor
      · rintro ⟨name, rfl, h⟩
        exact ⟨c :: name, rfl, List.Forall₂.cons hc h⟩
      · rintro ⟨name, hcs, _ | ⟨_, h⟩⟩
        obtain ⟨rfl, rfl⟩ := List.cons.inj hcs
        exact ⟨_, rfl, h⟩
    · rename_i hc
      constructor
      · intro h
        cases h
      · rintro ⟨name, hcs, _ | ⟨hfirst, _⟩⟩
        obtain ⟨rfl, _⟩ := List.cons.inj hcs
        exact absurd hfirst hc

theorem afterWord?_append : ∀ {ws cs : List Char},
    afterWord? (ws ++ vs) cs = (afterWord? ws cs).bind (afterWord? vs)
  | [], _ => rfl
  | _ :: _, [] => rfl
  | w :: ws, c :: cs => by
    rw [List.cons_append, afterWord?, afterWord?]
    split
    · exact afterWord?_append
    · rfl

end Letters

/-! ## Opening with a key -/

section Opening

variable {ws ws' cs name rest tail value : List Char}

/-- A text opens with a key: the word, in any case, and a colon. -/
def OpensWith (ws cs : List Char) : Prop := ∃ name tail, cs = name ++ ':' :: tail ∧ SameWord ws name

/-- Nothing follows, or a blank does. -/
def AtBreak (rest : List Char) : Prop := ∀ c ∈ rest.head?, c = ' '

theorem atBreak_nil : AtBreak [] := fun _ h => nomatch h

theorem atBreak_blank (rest : List Char) : AtBreak (' ' :: rest) := fun _ h => (Option.some.inj h).symm

theorem afterWord?_colon : afterWord? (ws ++ ':' :: tail) cs = some rest ↔
    ∃ name behind, cs = name ++ ':' :: behind ∧ SameWord ws name ∧ afterWord? tail behind = some rest := by
  rw [afterWord?_append, Option.bind_eq_some_iff]
  constructor
  · rintro ⟨behind, hfront, hbehind⟩
    obtain ⟨name, rfl, hname⟩ := afterWord?_eq_some.mp hfront
    cases behind with
    | nil => cases hbehind
    | cons c behind =>
      rw [afterWord?] at hbehind
      split at hbehind
      · rename_i hc
        cases sameLetter_colon hc
        exact ⟨name, behind, rfl, hname, hbehind⟩
      · cases hbehind
  · rintro ⟨name, behind, rfl, hname, hbehind⟩
    refine ⟨':' :: behind, afterWord?_eq_some.mpr ⟨name, rfl, hname⟩, ?_⟩
    rw [afterWord?, if_pos (by decide)]
    exact hbehind

/-- Texts that are alike up to a first colon are alike in front of it. -/
theorem eq_of_append_colon {name' tail' : List Char} (h : name ++ ':' :: tail = name' ++ ':' :: tail')
    (hname : ':' ∉ name) (hname' : ':' ∉ name') : name = name' := by
  rcases List.append_eq_append_iff.mp h with ⟨as, rfl, has⟩ | ⟨as, rfl, has⟩
  · cases as with
    | nil => rw [List.append_nil]
    | cons a as =>
      cases (List.cons.inj has).1
      exact absurd (List.mem_append_right _ List.mem_cons_self) hname'
  · cases as with
    | nil => rw [List.append_nil]
    | cons a as =>
      cases (List.cons.inj has).1
      exact absurd (List.mem_append_right _ List.mem_cons_self) hname

/-- **A text opens with one key at most.** -/
theorem eq_of_opensWith (hw : AllSmall ws) (hw' : AllSmall ws') (hname : name.map Char.toLower = ws')
    (h : OpensWith ws (name ++ ':' :: tail)) : ws = ws' := by
  obtain ⟨name', tail', he, hsame⟩ := h
  have hsame' : SameWord ws' name := sameWord_of_lowered hw'.keyChars hname
  cases eq_of_append_colon he (hsame'.notMem hw' (by decide) (by decide)) (hsame.notMem hw (by decide) (by decide))
  rw [← hname, hsame.lowered hw.keyChars (ascii_of_lowered hw'.keyChars hname)]

/-- Keys that are found by their words have different words. -/
theorem word_inj_of_find {κ : Type} {all : List κ} {word : κ → List Char} {key key' : κ}
    (hfind : ∀ key, all.find? (fun k => word k == word key) = some key) : word key = word key' ↔ key = key' := by
  constructor
  · intro h
    have hkey := hfind key
    rw [h, hfind key'] at hkey
    exact (Option.some.inj hkey).symm
  · rintro rfl
    rfl

/-- **A text whose first piece has no colon opens with no key.** -/
theorem not_opensWith_plain (hw : AllSmall ws) (hcs : ':' ∉ cs) (hrest : AtBreak rest) :
    ¬OpensWith ws (cs ++ rest) := by
  rintro ⟨name, tail, he, hsame⟩
  have hblank : ' ' ∉ name := hsame.notMem hw (by decide) (by decide)
  rcases List.append_eq_append_iff.mp he with ⟨as, rfl, rfl⟩ | ⟨as, rfl, has⟩
  · cases as with
    | nil => cases hrest ':' rfl
    | cons a as =>
      cases hrest a rfl
      exact hblank (List.mem_append_right _ List.mem_cons_self)
  · cases as with
    | nil =>
      rw [List.nil_append] at has
      cases hrest ':' (has ▸ rfl)
    | cons a as =>
      cases (List.cons.inj has).1
      exact hcs (List.mem_append_right _ List.mem_cons_self)

end Opening

/-! ## Recognizing keys and phrases -/

section Recognizing

variable {α : Type} {value : List Char → Option (α × Nat)} {a : α} {n : Nat} {before : Option Char}
  {ws cs rest : List Char} {phrases : List (List Char)}

/-- **What a key recognizes:** its word in any case, a colon and a value. -/
theorem keyed_eq_some : keyed ws value before cs = some (a, n) ↔ atStart before = true ∧ ∃ name tail m,
    cs = name ++ ':' :: tail ∧ SameWord ws name ∧ value tail = some (a, m) ∧ n = ws.length + 1 + m := by
  unfold keyed
  split
  · rename_i hstart
    simp only [hstart, true_and]
    constructor
    · intro h
      split at h
      · rename_i tail htail
        obtain ⟨name, behind, rfl, hname, hbehind⟩ := afterWord?_colon.mp htail
        cases hbehind
        obtain ⟨⟨b, m⟩, hvalue, hb⟩ := Option.map_eq_some_iff.mp h
        cases hb
        exact ⟨name, tail, m, rfl, hname, hvalue, rfl⟩
      · cases h
    · rintro ⟨name, tail, m, rfl, hname, hvalue, rfl⟩
      have htail : afterWord? (ws ++ [':']) (name ++ ':' :: tail) = some tail :=
        afterWord?_colon.mpr ⟨name, tail, rfl, hname, rfl⟩
      simp only [htail, hvalue, Option.map_some]
  · rename_i hstart
    simp [hstart]

theorem keyed_pos (h : keyed ws value before cs = some (a, n)) : 0 < n := by
  obtain ⟨_, _, _, _, _, _, _, rfl⟩ := keyed_eq_some.mp h
  omega

/-- A key with its value is recognized, whatever the case of the key. -/
theorem keyed_lowered {name : List Char} (hw : AllSmall ws) (hname : name.map Char.toLower = ws)
    (hvalue : value cs = some (a, n)) (hstart : atStart before = true) :
    keyed ws value before (name ++ ':' :: cs) = some (a, name.length + 1 + n) := by
  refine keyed_eq_some.mpr ⟨hstart, name, cs, n, rfl, sameWord_of_lowered hw.keyChars hname, hvalue, ?_⟩
  rw [← hname, List.length_map]

theorem keyed_eq_none (h : ¬OpensWith ws cs) : keyed ws value before cs = none := by
  rw [Option.eq_none_iff_forall_ne_some]
  rintro ⟨a, n⟩ hsome
  obtain ⟨_, name, tail, _, hcs, hname, _⟩ := keyed_eq_some.mp hsome
  exact h ⟨name, tail, hcs, hname⟩

/-- **A filter is recognized by its key,** whatever the case of the key, and by no other. -/
theorem keyed_filter {ws' name v : List Char} (hw : AllSmall ws) (hw' : AllSmall ws')
    (hname : name.map Char.toLower = ws') (hvalue : ws = ws' → value (v ++ rest) = some (a, v.length)) :
    keyed ws value none (name ++ ':' :: v ++ rest) =
      if ws = ws' then some (a, (name ++ ':' :: v).length) else none := by
  rw [List.append_assoc, List.cons_append]
  split
  · rename_i he
    rw [keyed_lowered hw (hname.trans he.symm) (hvalue he) rfl, List.length_append, List.length_cons, Nat.add_assoc,
      Nat.add_comm 1]
  · rename_i hne
    exact keyed_eq_none fun h => hne (eq_of_opensWith hw hw' hname h)

/-- What is recognized as a phrase is one of the phrases in any case, and a word ends there. -/
theorem oneOf?_eq_some {m : List Char} (h : oneOf? phrases cs = some (m, n)) : ∃ w ∈ phrases, ∃ rest,
    afterWord? w cs = some rest ∧ wordEnds rest = true ∧ m = cs.take w.length ∧ n = w.length := by
  obtain ⟨w, hw, hfound⟩ := List.exists_of_findSome?_eq_some h
  split at hfound
  · rename_i rest hrest
    split at hfound
    · rename_i hends
      cases hfound
      exact ⟨w, hw, rest, hrest, hends, rfl, rfl⟩
    · cases hfound
  · cases hfound

/-- A phrase with a colon in it is recognized only where a text opens with what stands before the colon. -/
theorem flagged_eq_none {keys : List (List Char)} (hkeys : ∀ w ∈ phrases, ∃ k ∈ keys, ∃ v, w = k ++ ':' :: v)
    (h : ∀ k ∈ keys, ¬OpensWith k cs) : flagged phrases before cs = none := by
  unfold flagged
  split
  · rw [Option.map_eq_none_iff, Option.eq_none_iff_forall_ne_some]
    rintro ⟨m, n⟩ hsome
    obtain ⟨w, hw, rest, hrest, _⟩ := oneOf?_eq_some hsome
    obtain ⟨k, hk, v, rfl⟩ := hkeys w hw
    obtain ⟨name, behind, hcs, hname, _⟩ := afterWord?_colon.mp hrest
    exact h k hk ⟨name, behind, hcs, hname⟩
  · rfl

end Recognizing

/-! ## Values -/

section Values

variable {w v written rest tail : List Char} {phrases : List (List Char)}

/-- A value without blanks and quotes. -/
def IsBare (v : List Char) : Prop := v ≠ [] ∧ ∀ c ∈ v, Text.isBlank c = false ∧ c ≠ '"'

instance : DecidablePred IsBare := fun v =>
  @instDecidableAnd _ _ _ (List.decidableBAll (fun c : Char => Text.isBlank c = false ∧ c ≠ '"') v)

/-- **A value is read up to the next blank.** -/
theorem value?_bare (hv : IsBare v) (hrest : AtBreak rest) : value? (v ++ rest) = some (v, v.length) := by
  obtain ⟨hne, hbare⟩ := hv
  have hquoted : quoted? (v ++ rest) = none := by
    refine quoted?_of_head ?_
    cases v with
    | nil => exact absurd rfl hne
    | cons c v =>
      intro hc
      exact (hbare c List.mem_cons_self).2 (Option.some.inj hc)
  have hrun : (v ++ rest).takeWhile (fun c => !Text.isBlank c) = v := by
    rw [List.takeWhile_append_of_pos fun c hc => by simp [(hbare c hc).1]]
    cases rest with
    | nil => rw [List.takeWhile_nil, List.append_nil]
    | cons c rest =>
      cases hrest c rfl
      rw [List.takeWhile_cons_of_neg (by simp [isBlank_space]), List.append_nil]
  have hempty : v.isEmpty = false := by simpa using hne
  simp only [value?, hquoted, hrun, hempty, Bool.false_eq_true, if_false]

/-- A phrase is found in a written piece only if it begins it. -/
theorem prefix_of_afterWord? (hw : AllKeyChars w) (hwritten : ∀ c ∈ written, c.toNat < 128) (hrest : AtBreak rest)
    (h : afterWord? w (written ++ rest) = some tail) : w <+: written.map Char.toLower := by
  obtain ⟨name, he, hname⟩ := afterWord?_eq_some.mp h
  have hblank : ' ' ∉ name := by
    intro hmem
    have hkey : IsKeyChar ' ' := hw _ (hname.toLower_mem hw (by decide) hmem)
    exact absurd hkey (by decide)
  rcases List.append_eq_append_iff.mp he with ⟨as, rfl, rfl⟩ | ⟨as, rfl, rfl⟩
  · cases as with
    | nil =>
      rw [List.append_nil] at hname
      exact hname.lowered hw hwritten ▸ List.prefix_rfl
    | cons a as =>
      cases hrest a rfl
      exact absurd (List.mem_append_right _ List.mem_cons_self) hblank
  · rw [List.map_append, hname.lowered hw fun c hc => hwritten c (List.mem_append_left _ hc)]
    exact List.prefix_append _ _

theorem wordEnds_of_atBreak (hrest : AtBreak rest) : wordEnds rest = true := by
  cases rest with
  | nil => rfl
  | cons c rest =>
    cases hrest c rfl
    rw [wordEnds, Text.isWordChar_blank]
    rfl

/-- **One of some phrases is read as a whole,** if no other one begins it. -/
theorem oneOf?_written (hphrases : ∀ w ∈ phrases, AllKeyChars w) (hw : w ∈ phrases)
    (hwritten : written.map Char.toLower = w) (hothers : ∀ v ∈ phrases, v <+: w → v = w) (hrest : AtBreak rest) :
    oneOf? phrases (written ++ rest) = some (written, written.length) := by
  have hascii := ascii_of_lowered (hphrases w hw) hwritten
  have hlength : w.length = written.length := by rw [← hwritten, List.length_map]
  have hfound : afterWord? w (written ++ rest) = some rest :=
    afterWord?_eq_some.mpr ⟨written, rfl, sameWord_of_lowered (hphrases w hw) hwritten⟩
  have hsome : (oneOf? phrases (written ++ rest)).isSome = true := by
    refine List.findSome?_isSome_iff.mpr ⟨w, hw, ?_⟩
    simp only [hfound, wordEnds_of_atBreak hrest, if_true, Option.isSome_some]
  obtain ⟨⟨m, n⟩, hm⟩ := Option.isSome_iff_exists.mp hsome
  obtain ⟨v, hv, tail, htail, _, rfl, rfl⟩ := oneOf?_eq_some hm
  have he : v = w := hothers v hv (hwritten ▸ prefix_of_afterWord? (hphrases v hv) hascii hrest htail)
  rw [hm, he, hlength, List.take_left]

theorem oneOf?_eq_none (hphrases : ∀ w ∈ phrases, AllKeyChars w) (hwritten : ∀ c ∈ written, c.toNat < 128)
    (hothers : ∀ v ∈ phrases, ¬v <+: written.map Char.toLower) (hrest : AtBreak rest) :
    oneOf? phrases (written ++ rest) = none := by
  rw [Option.eq_none_iff_forall_ne_some]
  rintro ⟨m, n⟩ hsome
  obtain ⟨v, hv, tail, htail, _⟩ := oneOf?_eq_some hsome
  exact hothers v hv (prefix_of_afterWord? (hphrases v hv) hwritten hrest htail)

end Values

end Shelfmark.Query
