import Shelfmark.Proofs.Query.Sidebar
import Shelfmark.Proofs.Query.Specials

/-!
# Quoted values

The keys of a text are looked for one after the other, each in what the keys before it left (`foldl_looked`), and none
of them knows of quotes: where the value of a filter stands in quotes, a key that is looked for earlier is found in it
behind any blank (`cutFirstFrom_quoted_eq_none`) and takes a part of it away.  So a quoted value is read as a whole
exactly if it mentions no such key (`quoted_opaque_iff`).
-/

namespace Shelfmark.Query

/-! ## One key after the other -/

section Looking

variable {κ σ β : Type} [DecidableEq κ] {keys : List κ} {key k k' : κ}

/-- The keys that are looked for before a key. -/
def earlier (keys : List κ) (key : κ) : List κ := keys.takeWhile fun k => k ≠ key

theorem mem_earlier_cons : k ∈ earlier (k' :: keys) key ↔ k' ≠ key ∧ (k = k' ∨ k ∈ earlier keys key) := by
  by_cases hkey : k' = key <;> simp [earlier, hkey]

theorem ne_of_mem_earlier (h : k ∈ earlier keys key) : k ≠ key := by
  simpa using List.mem_takeWhile_imp h

theorem earlier_append {done : List κ} (hkey : key ∉ done) : earlier (done ++ key :: keys) key = done := by
  have hdone : ∀ k ∈ done, decide (k ≠ key) = true := by
    intro k hk
    simpa using fun he : k = key => hkey (he ▸ hk)
  rw [earlier, List.takeWhile_append_of_pos hdone, List.takeWhile_cons_of_neg (by simp), List.append_nil]

/-- Of two keys one is looked for first. -/
theorem earlier_total (hk : k ∈ keys) (hkey : key ∈ keys) : k ∈ earlier keys key ∨ k = key ∨ key ∈ earlier keys k := by
  induction keys with
  | nil => cases hk
  | cons k' keys ih =>
    simp only [mem_earlier_cons]
    by_cases hfirst : k' = k
    · by_cases heq : k = key
      · exact Or.inr (Or.inl heq)
      · exact Or.inl ⟨fun h => heq (hfirst.symm.trans h), Or.inl hfirst.symm⟩
    · by_cases hsecond : k' = key
      · exact Or.inr (Or.inr ⟨hfirst, Or.inl hsecond.symm⟩)
      · have hk := (List.mem_cons.mp hk).resolve_left (Ne.symm hfirst)
        have hkey := (List.mem_cons.mp hkey).resolve_left (Ne.symm hsecond)
        exact (ih hk hkey).imp (fun h => ⟨hsecond, Or.inr h⟩) (Or.imp_right fun h => ⟨hfirst, Or.inr h⟩)

theorem earlier_split (h : key ∈ earlier keys k) : ∃ more, earlier keys k = earlier keys key ++ key :: more := by
  induction keys with
  | nil => cases h
  | cons k' keys ih =>
    obtain ⟨hk, h⟩ := mem_earlier_cons.mp h
    by_cases hkey : k' = key
    · exact ⟨earlier keys k, by simp [earlier, hkey, hkey ▸ hk]⟩
    · obtain ⟨more, hmore⟩ := ih (h.resolve_left (Ne.symm hkey))
      exact ⟨more, by simpa [earlier, hk, hkey] using hmore⟩

theorem earlier_split_of_mem (h : key ∈ keys) : ∃ more, keys = earlier keys key ++ key :: more := by
  induction keys with
  | nil => cases h
  | cons k' keys ih =>
    by_cases hkey : k' = key
    · exact ⟨keys, by simp [earlier, hkey]⟩
    · obtain ⟨more, hmore⟩ := ih ((List.mem_cons.mp h).resolve_left (Ne.symm hkey))
      exact ⟨more, by simpa [earlier, hkey] using hmore⟩

/-- Of the earlier keys with a property one is looked for first. -/
theorem exists_first {p : κ → Prop} (h : ∃ k ∈ earlier keys key, p k) :
    ∃ k ∈ earlier keys key, p k ∧ ∀ k' ∈ earlier keys k, ¬p k' := by
  induction keys with
  | nil =>
    obtain ⟨k, hk, _⟩ := h
    cases hk
  | cons k' keys ih =>
    obtain ⟨k, hk, hp⟩ := h
    obtain ⟨hne, hk⟩ := mem_earlier_cons.mp hk
    by_cases hfirst : p k'
    · refine ⟨k', mem_earlier_cons.mpr ⟨hne, Or.inl rfl⟩, hfirst, fun k hk => ?_⟩
      exact absurd rfl (mem_earlier_cons.mp hk).1
    · have hk := hk.resolve_left fun he => hfirst (he ▸ hp)
      obtain ⟨k₁, hk₁, hp₁, hall⟩ := ih ⟨k, hk, hp⟩
      refine ⟨k₁, mem_earlier_cons.mpr ⟨hne, Or.inr hk₁⟩, hp₁, fun k hk => ?_⟩
      rcases (mem_earlier_cons.mp hk).2 with rfl | hk
      · exact hfirst
      · exact hall k hk

variable (found : κ → List Char → β) (left : κ → List Char → List Char) (put : σ → κ → β → σ)

/-- What some keys leave of a text, one after the other. -/
def leftBy (keys : List κ) (cs : List Char) : List Char := keys.foldl (fun cs k => left k cs) cs

omit [DecidableEq κ]

theorem leftBy_append (keys keys' : List κ) (cs : List Char) :
    leftBy left (keys ++ keys') cs = leftBy left keys' (leftBy left keys cs) := List.foldl_append

theorem leftBy_of_fixed {cs : List Char} (h : ∀ k ∈ keys, left k cs = cs) : leftBy left keys cs = cs := by
  induction keys with
  | nil => rfl
  | cons k keys ih =>
    rw [leftBy, List.foldl_cons, h k List.mem_cons_self]
    exact ih fun k hk => h k (List.mem_cons_of_mem _ hk)

variable [DecidableEq κ] {all : List κ}

theorem foldl_looked_from (hnodup : all.Nodup) (cs : List Char) : ∀ {keys done : List κ} (f : σ), done ++ keys = all →
    keys.foldl (fun s k => (put s.1 k (found k s.2), left k s.2)) (f, leftBy left done cs) =
      (keys.foldl (fun f k => put f k (found k (leftBy left (earlier all k) cs))) f, leftBy left all cs)
  | [], done, f, h => by
    rw [List.append_nil] at h
    rw [h]
    rfl
  | k :: keys, done, f, h => by
    have hk : k ∉ done := by
      rw [← h] at hnodup
      exact fun hmem => (List.nodup_append.mp hnodup).2.2 k hmem k List.mem_cons_self rfl
    have hdone : earlier all k = done := by rw [← h, earlier_append hk]
    have hleft : left k (leftBy left done cs) = leftBy left (done ++ [k]) cs := by rw [leftBy_append]; rfl
    rw [List.foldl_cons, List.foldl_cons, hdone]
    show keys.foldl _ (put f k (found k (leftBy left done cs)), left k (leftBy left done cs)) = _
    rw [hleft, foldl_looked_from hnodup cs _ (by rw [← h, List.append_assoc]; rfl)]

/-- **Each key is looked for in what the keys before it left.** -/
theorem foldl_looked (hnodup : all.Nodup) (f : σ) (cs : List Char) :
    all.foldl (fun s k => (put s.1 k (found k s.2), left k s.2)) (f, cs) =
      (all.foldl (fun f k => put f k (found k (leftBy left (earlier all k) cs))) f, leftBy left all cs) :=
  foldl_looked_from found left put hnodup cs f (List.nil_append all)

/-- **A key finds a whole text** if the earlier keys find nothing in it: it finds it, and no other key finds
anything. -/
theorem looked_whole {cs : List Char} {whole nothing : β} (hkey : key ∈ all)
    (hearlier : ∀ k ∈ earlier all key, found k cs = nothing ∧ left k cs = cs)
    (hwhole : found key cs = whole ∧ left key cs = []) (hnil : ∀ k, found k [] = nothing ∧ left k [] = []) :
    (∀ k ∈ all, found k (leftBy left (earlier all k) cs) = if k = key then whole else nothing) ∧
      leftBy left all cs = [] := by
  have hbefore : leftBy left (earlier all key) cs = cs := leftBy_of_fixed left fun k hk => (hearlier k hk).2
  have hbehind : ∀ more, leftBy left (earlier all key ++ key :: more) cs = [] := by
    intro more
    rw [leftBy_append, hbefore, leftBy, List.foldl_cons, hwhole.2]
    exact leftBy_of_fixed left fun k _ => (hnil k).2
  constructor
  · intro k hk
    rcases earlier_total hk hkey with h | rfl | h
    · obtain ⟨more, hmore⟩ := earlier_split h
      have hfixed : leftBy left (earlier all k) cs = cs := leftBy_of_fixed left fun k' hk' =>
        (hearlier k' (hmore ▸ List.mem_append_left _ hk')).2
      rw [hfixed, if_neg (ne_of_mem_earlier h), (hearlier k h).1]
    · rw [hbefore, if_pos rfl, hwhole.1]
    · obtain ⟨more, hmore⟩ := earlier_split h
      rw [hmore, hbehind, if_neg (ne_of_mem_earlier h).symm, (hnil k).1]
  · obtain ⟨more, hmore⟩ := earlier_split_of_mem hkey
    rw [hmore, hbehind]

end Looking

/-! ## Keys in a quoted value -/

section Quotes

variable {α : Type} {value : List Char → Option (α × Nat)} {opens : List Char → Prop} {ws ws' v cs : List Char}

/-- A text holds, behind a blank, a key in any case and a colon, and a value follows. -/
def Mentions (ws : List Char) (opens : List Char → Prop) (v : List Char) : Prop :=
  ∃ front b name behind, v = front ++ b :: (name ++ ':' :: behind) ∧ Text.isBlank b = true ∧ SameWord ws name ∧
    opens behind

/-- A value may begin here: no blank follows. -/
def OpensValue (behind : List Char) : Prop := ∀ c ∈ behind.head?, Text.isBlank c = false

/-- A value of a kind may begin here. -/
def ValueKind.Opens : ValueKind → List Char → Prop
  | .lowered, behind | .verbatim, behind => OpensValue behind
  | .yesNo, behind => ∃ w ∈ [['y', 'e', 's'], ['n', 'o']], ∃ answer rest, behind = answer ++ rest ∧ SameWord w answer ∧
      wordEnds rest = true

theorem value?_beforeQuote (hv : '"' ∉ v) : (value? (v ++ ['"'])).isSome = true ↔ OpensValue v := by
  cases v with
  | nil => exact ⟨fun _ _ h => (nomatch h), fun _ => rfl⟩
  | cons c v =>
    have hc : c ≠ '"' := fun he => hv (he ▸ List.mem_cons_self)
    have hquoted : quoted? (c :: (v ++ ['"'])) = none := quoted?_of_head (by simpa using hc)
    simp only [value?, hquoted, List.cons_append, List.takeWhile_cons, OpensValue, List.head?_cons, Option.mem_def,
      Option.some.injEq, forall_eq']
    cases Text.isBlank c <;> simp

theorem oneOf?_beforeQuote {phrases : List (List Char)} (hphrases : ∀ w ∈ phrases, AllSmall w) (hv : '"' ∉ v) :
    (oneOf? phrases (v ++ ['"'])).isSome = true ↔
      ∃ w ∈ phrases, ∃ answer rest, v = answer ++ rest ∧ SameWord w answer ∧ wordEnds rest = true := by
  rw [oneOf?, List.findSome?_isSome_iff]
  refine exists_congr fun w => and_congr_right fun hw => ?_
  constructor
  · intro h
    split at h
    · rename_i rest hrest
      obtain ⟨answer, he, hsame⟩ := afterWord?_eq_some.mp hrest
      have hends : wordEnds rest = true := by
        by_contra hends
        simp [hends] at h
      rcases List.eq_nil_or_concat' rest with rfl | ⟨rest', c, rfl⟩
      · rw [List.append_nil] at he
        exact absurd (he ▸ List.mem_append_right v List.mem_cons_self)
          (hsame.notMem (hphrases w hw) (by decide) (by decide))
      · rw [← List.append_assoc] at he
        obtain ⟨rfl, hc⟩ := List.append_inj' he rfl
        refine ⟨answer, rest', rfl, hsame, ?_⟩
        cases rest' with
        | nil => rfl
        | cons c rest' => exact hends
    · cases h
  · rintro ⟨answer, rest, rfl, hsame, hends⟩
    have hrest : afterWord? w (answer ++ rest ++ ['"']) = some (rest ++ ['"']) :=
      afterWord?_eq_some.mpr ⟨answer, List.append_assoc .., hsame⟩
    have hends' : wordEnds (rest ++ ['"']) = true := by
      cases rest with
      | nil => rfl
      | cons c rest => exact hends
    simp only [hrest, hends', if_true, Option.isSome_some]

theorem valueOf?_beforeQuote (kind : ValueKind) (hv : '"' ∉ v) :
    (SpecialFilters.valueOf? kind (v ++ ['"'])).isSome = true ↔ kind.Opens v := by
  cases kind with
  | lowered | verbatim => exact value?_beforeQuote hv
  | yesNo => exact oneOf?_beforeQuote (by decide) hv

/-- **A key is found in a quoted value exactly if the value mentions it.** -/
theorem cutFirstFrom_quoted_eq_none (hopens : ∀ {v}, '"' ∉ v → ((value (v ++ ['"'])).isSome = true ↔ opens v))
    (hv : '"' ∉ v) : cutFirstFrom (keyed ws value) (some '"') (v ++ ['"']) = none ↔ ¬Mentions ws opens v := by
  rw [cutFirstFrom_eq_none]
  constructor
  · rintro h ⟨front, b, name, behind, rfl, hb, hsame, hbehind⟩
    have hquote : '"' ∉ behind := fun hmem => hv (by simp [hmem])
    obtain ⟨⟨a, m⟩, hvalue⟩ := Option.isSome_iff_exists.mp ((hopens hquote).mpr hbehind)
    have hnone := h (front ++ [b]) (name ++ ':' :: (behind ++ ['"'])) (by simp) (by simp)
    rw [keyed_eq_some.mpr ⟨by simp [atStart, hb], name, _, m, rfl, hsame, hvalue, rfl⟩] at hnone
    cases hnone
  · intro h front rest he _
    rw [Option.eq_none_iff_forall_ne_some]
    rintro ⟨a, n⟩ hsome
    obtain ⟨hstart, name, tail, m, rfl, hsame, hvalue, _⟩ := keyed_eq_some.mp hsome
    -- the place is behind a blank of the value, and what follows the colon ends with the closing quote
    rcases List.eq_nil_or_concat' front with rfl | ⟨front, b, rfl⟩
    · exact absurd hstart (by simp [atStart, isBlank_quote])
    have hb : Text.isBlank b = true := by simpa [atStart] using hstart
    rcases List.eq_nil_or_concat' tail with rfl | ⟨behind, c, rfl⟩
    · have hlast := congrArg List.getLast? he
      simp [← List.append_assoc] at hlast
    · have he' : v ++ ['"'] = front ++ b :: (name ++ ':' :: behind) ++ [c] := he.trans (by simp)
      obtain ⟨rfl, hc⟩ := List.append_inj' he' rfl
      cases hc
      have hquote : '"' ∉ behind := fun hmem => hv (by simp [hmem])
      exact h ⟨front, b, name, behind, rfl, hb, hsame, (hopens hquote).mp (by rw [hvalue]; rfl)⟩

/-! ## Filters with a quoted value -/

/-- A key, a colon and an opening quote. -/
def opening (ws : List Char) : List Char := ws ++ [':', '"']

theorem opening_ne_nil : opening ws ≠ [] := by simp [opening]

theorem getLast?_opening : (opening ws).getLast? = some '"' := by simp [opening]

/-- A filter whose value stands in quotes. -/
def quotedFilter (ws v : List Char) : List Char := opening ws ++ (v ++ ['"'])

theorem quotedFilter_ne_nil : quotedFilter ws v ≠ [] := List.append_ne_nil_of_left_ne_nil opening_ne_nil _

theorem opening_append : opening ws ++ cs = ws ++ ':' :: '"' :: cs := by simp [opening]

theorem opening_unbroken (hw : AllSmall ws) : ∀ c ∈ opening ws, Text.isBlank c = false := by
  refine isBlank_filter hw hw.lowered fun c hc => ?_
  cases List.mem_singleton.mp hc
  exact isBlank_quote

theorem value?_quoted (hne : v ≠ []) (hv : '"' ∉ v) : value? ('"' :: (v ++ ['"'])) = some (v, v.length + 2) := by
  have hquoted : quoted? ('"' :: (v ++ ['"'])) = some (v, []) := quoted?_phrase hne hv
  simp only [value?, hquoted]

/-- What is read from a quote on stands between two quotes, or holds a quote. -/
theorem value?_quote (cs : List Char) : ∃ u n, value? ('"' :: cs) = some (u, n) ∧ (u.length < cs.length ∨ '"' ∈ u) := by
  cases hquoted : quoted? ('"' :: cs) with
  | none =>
    refine ⟨'"' :: cs.takeWhile fun c => !Text.isBlank c, (cs.takeWhile fun c => !Text.isBlank c).length + 1, ?_,
      Or.inr List.mem_cons_self⟩
    simp only [value?, hquoted, List.takeWhile_cons, isBlank_quote, Bool.not_false, if_true, List.isEmpty_cons,
      Bool.false_eq_true, if_false, List.length_cons]
  | some found =>
    obtain ⟨u, behind⟩ := found
    refine ⟨u, u.length + 2, by simp only [value?, hquoted], Or.inl ?_⟩
    have hsplit : (cs.takeWhile (· != '"')).length + (cs.dropWhile (· != '"')).length = cs.length := by
      rw [← List.length_append, List.takeWhile_append_dropWhile]
    simp only [quoted?] at hquoted
    split at hquoted
    · rename_i hdrop
      split at hquoted
      · cases hquoted
      · cases hquoted
        rw [hdrop, List.length_cons] at hsplit
        omega
    · cases hquoted

variable (hw : AllSmall ws) (hw' : AllSmall ws')
include hw

/-- The key of a filter is found at its front. -/
theorem keyed_opening {a : α} {n : Nat} (hvalue : value ('"' :: cs) = some (a, n)) :
    keyed ws value none (opening ws ++ cs) = some (a, ws.length + 1 + n) := by
  rw [opening_append]
  exact keyed_lowered hw hw.lowered hvalue rfl

/-- A filter with a quoted value is found as a whole. -/
theorem keyed_quotedFilter (hne : v ≠ []) (hv : '"' ∉ v) :
    keyed ws value? none (quotedFilter ws v) = some (v, (quotedFilter ws v).length) := by
  rw [quotedFilter, keyed_opening hw (value?_quoted hne hv)]
  simp only [opening, List.length_append, List.length_cons, List.length_nil]
  congr 2
  omega

include hw'

/-- Another key is not found at the front of a filter. -/
theorem keyed_opening_ne (hne : ws' ≠ ws) : keyed ws' value none (opening ws ++ cs) = none := by
  refine keyed_eq_none fun h => hne ?_
  rw [opening_append] at h
  exact eq_of_opensWith hw' hw hw.lowered h

theorem cutFirst_opening (hne : ws' ≠ ws) : cutFirst (keyed ws' value) (opening ws ++ cs) =
    (cutFirstFrom (keyed ws' value) (some '"') cs).map fun (a, cs) => (a, opening ws ++ cs) := by
  rw [cutFirst_front (anchored_keyed ..) (opening_unbroken hw) (keyed_opening_ne hw hw' hne) opening_ne_nil,
    getLast?_opening]

theorem pieces_opening (hne : ws' ≠ ws) : pieces (keyed ws' value) (opening ws ++ cs) =
    (opening ws).map .char ++ piecesFrom (keyed ws' value) (some '"') 0 cs := by
  rw [pieces_front (anchored_keyed ..) (opening_unbroken hw) (keyed_opening_ne hw hw' hne) opening_ne_nil,
    getLast?_opening]

end Quotes

/-! ## Special filters -/

namespace SpecialFilters

variable {key k : FilterKey} {v cs : List Char}

/-- The filters with one value of one key. -/
def single (key : FilterKey) (v : List Char) : SpecialFilters := ofValues fun k => if k = key then some v else none

/-- What a key finds in a text. -/
def foundIn (key : FilterKey) (cs : List Char) : Option (List Char) := (cutFirst (recognizer key) cs).map Prod.fst

/-- What a key leaves of a text. -/
def leftOf (key : FilterKey) (cs : List Char) : List Char := ((cutFirst (recognizer key) cs).map Prod.snd).getD cs

theorem takeKey_eq (state : SpecialFilters × List Char) (key : FilterKey) :
    takeKey state key = (state.1.setOption key (foundIn key state.2), leftOf key state.2) := by
  unfold takeKey foundIn leftOf
  cases cutFirst (recognizer key) state.2 <;> rfl

/-- What a key finds when it is looked for. -/
def looked (cs : List Char) (key : FilterKey) : Option (List Char) :=
  foundIn key (leftBy leftOf (earlier FilterKey.all key) cs)

theorem parseChars_eq (cs : List Char) :
    parseChars cs = (ofValues (looked cs), Text.squash (leftBy leftOf FilterKey.all cs)) := by
  have htake : takeKey = fun s k => (s.1.setOption k (foundIn k s.2), leftOf k s.2) := by
    funext state key
    exact takeKey_eq state key
  rw [parseChars, htake, foldl_looked foundIn leftOf setOption (by decide), ← foldl_setOption]
  rfl

theorem recognizer_eq (hkind : key.kind ≠ .yesNo) : recognizer key = keyed key.word.toList value? := by
  cases key <;> first | rfl | exact absurd rfl hkind

/-- A filter with a quoted value is taken out as a whole. -/
theorem cutFirst_quotedFilter (hkind : key.kind ≠ .yesNo) (hne : v ≠ []) (hv : '"' ∉ v) :
    cutFirst (recognizer key) (quotedFilter key.word.toList v) = some (v, []) := by
  rw [recognizer_eq hkind, cutFirst_found quotedFilter_ne_nil (keyed_quotedFilter key.allSmall_word hne hv),
    List.drop_length]

/-- Another key takes nothing out of it exactly if the value does not mention the key. -/
theorem cutFirst_other_eq_none (hk : k ≠ key) (hv : '"' ∉ v) :
    cutFirst (recognizer k) (quotedFilter key.word.toList v) = none ↔ ¬Mentions k.word.toList k.kind.Opens v := by
  have hword : k.word.toList ≠ key.word.toList := fun h => hk (FilterKey.word_inj.mp h)
  rw [recognizer, quotedFilter, cutFirst_opening key.allSmall_word k.allSmall_word hword, Option.map_eq_none_iff,
    cutFirstFrom_quoted_eq_none (valueOf?_beforeQuote k.kind) hv]

/-- What another key leaves of a filter: its front, and no more of the rest than there was. -/
theorem leftOf_opening (hk : k ≠ key) (cs : List Char) : ∃ cs',
    leftOf k (opening key.word.toList ++ cs) = opening key.word.toList ++ cs' ∧ cs'.length ≤ cs.length ∧
      (foundIn k (opening key.word.toList ++ cs) ≠ none → cs'.length < cs.length) := by
  have hword : k.word.toList ≠ key.word.toList := fun h => hk (FilterKey.word_inj.mp h)
  have hcut : cutFirst (recognizer k) (opening key.word.toList ++ cs) = _ :=
    cutFirst_opening key.allSmall_word k.allSmall_word hword
  unfold leftOf foundIn
  rw [hcut]
  cases hfrom : cutFirstFrom (keyed k.word.toList (valueOf? k.kind)) (some '"') cs with
  | none => exact ⟨cs, rfl, le_rfl, fun h => absurd rfl h⟩
  | some found =>
    obtain ⟨a, cs'⟩ := found
    have hshorter : cs'.length < cs.length := cutFirstFrom_shorter keyed_pos hfrom
    exact ⟨cs', rfl, hshorter.le, fun _ => hshorter⟩

theorem leftBy_opening {keys : List FilterKey} (hkeys : ∀ k ∈ keys, k ≠ key) (cs : List Char) : ∃ cs',
    leftBy leftOf keys (opening key.word.toList ++ cs) = opening key.word.toList ++ cs' ∧ cs'.length ≤ cs.length := by
  induction keys generalizing cs with
  | nil => exact ⟨cs, rfl, le_rfl⟩
  | cons k keys ih =>
    obtain ⟨cs₁, h₁, hle₁, _⟩ := leftOf_opening (hkeys k List.mem_cons_self) cs
    obtain ⟨cs₂, h₂, hle₂⟩ := ih (fun k hk => hkeys k (List.mem_cons_of_mem _ hk)) cs₁
    refine ⟨cs₂, ?_, hle₂.trans hle₁⟩
    rw [leftBy, List.foldl_cons, h₁]
    exact h₂

/-- Of a shortened value something else is read. -/
theorem foundIn_shortened (hkind : key.kind ≠ .yesNo) (hv : '"' ∉ v) (hcs : cs.length ≤ v.length) :
    ∃ u, foundIn key (opening key.word.toList ++ cs) = some u ∧ u ≠ v := by
  obtain ⟨u, n, hvalue, hu⟩ := value?_quote cs
  refine ⟨u, ?_, ?_⟩
  · rw [foundIn, recognizer_eq hkind, cutFirst_found (List.append_ne_nil_of_left_ne_nil opening_ne_nil _)
      (keyed_opening key.allSmall_word hvalue)]
    rfl
  · rintro rfl
    rcases hu with hu | hu
    · omega
    · exact hv hu

/-- A key that the value mentions, and no earlier one does, finds something, and the key of the filter does not find
the value. -/
theorem looked_mentioned (hkind : key.kind ≠ .yesNo) (hv : '"' ∉ v) (hk : k ∈ earlier FilterKey.all key)
    (hmention : Mentions k.word.toList k.kind.Opens v)
    (hfirst : ∀ k' ∈ earlier FilterKey.all k, ¬Mentions k'.word.toList k'.kind.Opens v) :
    looked (quotedFilter key.word.toList v) k ≠ none ∧
      ∃ u, looked (quotedFilter key.word.toList v) key = some u ∧ u ≠ v := by
  have hne := ne_of_mem_earlier hk
  obtain ⟨more, hmore⟩ := earlier_split hk
  have hother : ∀ k' ∈ earlier FilterKey.all key, k' ≠ key := fun _ => ne_of_mem_earlier
  rw [hmore] at hother
  have hbefore : leftBy leftOf (earlier FilterKey.all k) (quotedFilter key.word.toList v) =
      quotedFilter key.word.toList v := by
    refine leftBy_of_fixed leftOf fun k' hk' => ?_
    rw [leftOf, (cutFirst_other_eq_none (hother k' (List.mem_append_left _ hk')) hv).mpr (hfirst k' hk')]
    rfl
  have hfound : foundIn k (quotedFilter key.word.toList v) ≠ none := by
    rw [foundIn, ne_eq, Option.map_eq_none_iff, cutFirst_other_eq_none hne hv]
    exact not_not_intro hmention
  obtain ⟨cs, hcs, _, hshorter⟩ := leftOf_opening hne (v ++ ['"'])
  obtain ⟨cs', hcs', hle⟩ := leftBy_opening (fun k' (hk' : k' ∈ more) => hother k' (by simp [hk'])) cs
  have hlength := hshorter hfound
  rw [List.length_append, List.length_singleton] at hlength
  constructor
  · rwa [looked, hbefore]
  · obtain ⟨u, hu, hne⟩ := foundIn_shortened hkind hv (show cs'.length ≤ v.length by omega)
    refine ⟨u, ?_, hne⟩
    rw [looked, hmore, leftBy_append, hbefore, leftBy, List.foldl_cons, quotedFilter, hcs, ← leftBy, hcs', hu]

/-- Two filters are told apart if another key than that of a single value has a value, and that key none or another
one. -/
theorem ofValues_ne {value : FilterKey → Option (List Char)} {u : List Char} (hk : k ∈ earlier FilterKey.all key)
    (hvalue : value k ≠ none) (hkey : value key = some u) (hne : u ≠ v) :
    ofValues value ≠ single key v := by
  have hother := ne_of_mem_earlier hk
  intro h
  cases k with
  | category | domain | platform | repo | type | hasImage | playlist | accessed | stale | enriched | dead | folder =>
    simp [single, ofValues, hother, hvalue] at h
  | channel =>
    -- channel and author set the same filter, so here it is the value of author that tells them apart
    by_cases hauthor : key = .author
    · subst hauthor
      have hcreator := congrArg SpecialFilters.creator h
      simp only [single, ofValues, hkey, Option.some_or, Option.map_some, if_true, Option.some.injEq, String.ofList_inj]
        at hcreator
      exact hne hcreator
    · simp [single, ofValues, hother, Ne.symm hauthor, hvalue] at h
  | author =>
    have hchannel : key ≠ .channel := by
      rintro rfl
      exact absurd hk (by decide)
    simp [single, ofValues, hother, hchannel.symm, hvalue] at h

/-- **A quoted value is set, and nothing else, exactly if it mentions no key that is looked for earlier.** -/
theorem parseChars_quoted_iff (hkind : key.kind ≠ .yesNo) (hne : v ≠ []) (hv : '"' ∉ v) :
    parseChars (quotedFilter key.word.toList v) = (single key v, []) ↔
      ∀ k ∈ earlier FilterKey.all key, ¬Mentions k.word.toList k.kind.Opens v := by
  rw [parseChars_eq]
  constructor
  · intro h
    by_contra hmentions
    simp only [not_forall, not_not, exists_prop] at hmentions
    obtain ⟨k, hk, hmention, hfirst⟩ := exists_first hmentions
    obtain ⟨hsome, u, hu, huv⟩ := looked_mentioned hkind hv hk hmention hfirst
    exact ofValues_ne hk hsome hu huv (congrArg Prod.fst h)
  · intro h
    have hearlier : ∀ k ∈ earlier FilterKey.all key, foundIn k (quotedFilter key.word.toList v) = none ∧
        leftOf k (quotedFilter key.word.toList v) = quotedFilter key.word.toList v := by
      intro k hk
      have hnone := (cutFirst_other_eq_none (ne_of_mem_earlier hk) hv).mpr (h k hk)
      simp [foundIn, leftOf, hnone]
    have hself : foundIn key (quotedFilter key.word.toList v) = some v ∧
        leftOf key (quotedFilter key.word.toList v) = [] := by
      simp [foundIn, leftOf, cutFirst_quotedFilter hkind hne hv]
    obtain ⟨hlooked, hleft⟩ := looked_whole foundIn leftOf key.mem_all hearlier hself fun _ => ⟨rfl, rfl⟩
    have hvalues : looked (quotedFilter key.word.toList v) = fun k => if k = key then some v else none := by
      funext k
      exact hlooked k k.mem_all
    rw [hvalues, hleft]
    rfl

end SpecialFilters

/-! ## Filters of the side bar -/

namespace ActiveFilters

variable {key k : SidebarKey} {v cs : List Char}

/-- What a key finds in a text, in lower case. -/
def foundIn (key : SidebarKey) (cs : List Char) : List String :=
  (tokensOf (pieces (keyed key.word.toList value?) cs)).map fun v => String.ofList (Text.lowerChars v)

/-- What a key leaves of a text. -/
def leftOf (key : SidebarKey) (cs : List Char) : List Char := fill [] (pieces (keyed key.word.toList value?) cs)

/-- What a key finds when it is looked for. -/
def looked (cs : List Char) (key : SidebarKey) : List String :=
  foundIn key (leftBy leftOf (earlier SidebarKey.all key) cs)

theorem foldl_takeKey_eq (cs : List Char) :
    SidebarKey.all.foldl takeKey ({}, cs) = (ofValues (looked cs), leftBy leftOf SidebarKey.all cs) := by
  rw [← foldl_addValues]
  exact foldl_looked foundIn leftOf addValues (by decide) {} cs

theorem pieces_quotedFilter (hne : v ≠ []) (hv : '"' ∉ v) :
    pieces (keyed key.word.toList value?) (quotedFilter key.word.toList v) = [.token v] := by
  have hwhole : keyed key.word.toList value? none (quotedFilter key.word.toList v ++ []) =
      some (v, (quotedFilter key.word.toList v).length) := by
    rw [List.append_nil, keyed_quotedFilter key.allSmall_word hne hv]
  have hpieces := pieces_found quotedFilter_ne_nil hwhole
  rw [List.append_nil] at hpieces
  exact hpieces

/-- Another key finds something in it exactly if the value mentions the key. -/
theorem cutFirst_other_eq_none (hk : k ≠ key) (hv : '"' ∉ v) :
    cutFirst (keyed k.word.toList value?) (quotedFilter key.word.toList v) = none ↔
      ¬Mentions k.word.toList OpensValue v := by
  have hword : k.word.toList ≠ key.word.toList := fun h => hk (SidebarKey.word_inj.mp h)
  rw [quotedFilter, cutFirst_opening key.allSmall_word k.allSmall_word hword, Option.map_eq_none_iff,
    cutFirstFrom_quoted_eq_none value?_beforeQuote hv]

/-- Another key leaves the front of a filter. -/
theorem leftBy_opening {keys : List SidebarKey} (hkeys : ∀ k ∈ keys, k ≠ key) (cs : List Char) :
    ∃ cs', leftBy leftOf keys (opening key.word.toList ++ cs) = opening key.word.toList ++ cs' := by
  induction keys generalizing cs with
  | nil => exact ⟨cs, rfl⟩
  | cons k keys ih =>
    have hword : k.word.toList ≠ key.word.toList :=
      fun h => hkeys k List.mem_cons_self (SidebarKey.word_inj.mp h)
    rw [leftBy, List.foldl_cons, leftOf, pieces_opening key.allSmall_word k.allSmall_word hword, fill_append,
      fill_chars]
    exact ih (fun k hk => hkeys k (List.mem_cons_of_mem _ hk)) _

/-- The key of a filter finds something, whatever was taken out of the value. -/
theorem looked_ne_nil (key : SidebarKey) (v : List Char) : looked (quotedFilter key.word.toList v) key ≠ [] := by
  obtain ⟨cs, hcs⟩ := leftBy_opening (fun _ => ne_of_mem_earlier) (v ++ ['"'])
  obtain ⟨u, n, hvalue, _⟩ := value?_quote cs
  have hcut := cutFirst_found (List.append_ne_nil_of_left_ne_nil opening_ne_nil _)
    (keyed_opening key.allSmall_word hvalue)
  rw [looked, quotedFilter, hcs, foundIn, ne_eq, List.map_eq_nil_iff]
  refine tokensOf_ne_nil ?_
  rw [← cutFirst, hcut]
  exact Option.some_ne_none _

/-- Values of two keys are not a single value. -/
theorem ofValues_ne {values : SidebarKey → List String} {text : String} (dead stale : Bool) (hother : k ≠ key)
    (hk : values k ≠ []) (hkey : values key ≠ []) :
    { ofValues values with deadLinks := dead, stale := stale } ≠ single key text := by
  have hpos := List.length_pos_of_ne_nil hk
  have hposKey := List.length_pos_of_ne_nil hkey
  intro h
  have hcount : (values .domain).length + (values .site).length =
      (if .domain = key then 1 else 0) + (if .site = key then 1 else 0) := by
    have hlength := congrArg (fun f : ActiveFilters => f.domains.length) h
    simpa [single, ofValues, apply_ite List.length] using hlength
  cases k with
  | folder | topic | type | tag => simp [single, ofValues, hother, hk] at h
  | domain | site =>
    -- the two keys have one list, so here the values are counted
    cases key with
    | domain | site => first | exact hother rfl | (simp only [if_true, reduceCtorEq, if_false] at hcount; omega)
    | folder | topic | type | tag =>
      simp only [reduceCtorEq, if_false] at hcount
      omega

/-- **A quoted value is added, and nothing else, exactly if it mentions no key that is looked for earlier.** -/
theorem parseChars_quoted_iff (hne : v ≠ []) (hv : '"' ∉ v) :
    parseChars (quotedFilter key.word.toList v) = (single key (String.ofList (Text.lowerChars v)), []) ↔
      ∀ k ∈ earlier SidebarKey.all key, ¬Mentions k.word.toList OpensValue v := by
  rw [parseChars, foldl_takeKey_eq]
  constructor
  · intro h
    by_contra hmentions
    simp only [not_forall, not_not, exists_prop] at hmentions
    obtain ⟨k, hk, hmention, hfirst⟩ := exists_first hmentions
    obtain ⟨more, hmore⟩ := earlier_split hk
    have hbefore : leftBy leftOf (earlier SidebarKey.all k) (quotedFilter key.word.toList v) =
        quotedFilter key.word.toList v := by
      refine leftBy_of_fixed leftOf fun k' hk' => ?_
      have hother : k' ≠ key := ne_of_mem_earlier (hmore ▸ List.mem_append_left (k :: more) hk')
      rw [leftOf, pieces, piecesFrom_of_none ((cutFirst_other_eq_none hother hv).mpr (hfirst k' hk')), fill_chars]
    have hlooked : looked (quotedFilter key.word.toList v) k ≠ [] := by
      rw [looked, hbefore, foundIn, ne_eq, List.map_eq_nil_iff]
      exact tokensOf_ne_nil fun hnone => (cutFirst_other_eq_none (ne_of_mem_earlier hk) hv).mp hnone hmention
    exact ofValues_ne _ _ (ne_of_mem_earlier hk) hlooked (looked_ne_nil key v) (congrArg Prod.fst h)
  · intro h
    have hearlier : ∀ k ∈ earlier SidebarKey.all key, foundIn k (quotedFilter key.word.toList v) = [] ∧
        leftOf k (quotedFilter key.word.toList v) = quotedFilter key.word.toList v := by
      intro k hk
      have hnone := (cutFirst_other_eq_none (ne_of_mem_earlier hk) hv).mpr (h k hk)
      rw [foundIn, leftOf, pieces, piecesFrom_of_none hnone, tokensOf_chars, fill_chars]
      exact ⟨rfl, rfl⟩
    have hself : foundIn key (quotedFilter key.word.toList v) = [String.ofList (Text.lowerChars v)] ∧
        leftOf key (quotedFilter key.word.toList v) = [] := by
      rw [foundIn, leftOf, pieces_quotedFilter hne hv]
      exact ⟨rfl, rfl⟩
    obtain ⟨hlooked, hleft⟩ := looked_whole foundIn leftOf key.mem_all hearlier hself fun _ => ⟨rfl, rfl⟩
    have hvalues : looked (quotedFilter key.word.toList v) =
        fun k => if k = key then [String.ofList (Text.lowerChars v)] else [] := by
      funext k
      exact hlooked k k.mem_all
    rw [hvalues, hleft]
    rfl

end ActiveFilters

/-- **A quoted value is read as a whole exactly if it mentions no key that is looked for earlier.**  Then its filter is
set to it, in lower case where the key is read so, nothing else is, and no text is left. -/
theorem quoted_opaque_iff {v : String} (hne : v ≠ "") (hquote : '"' ∉ v.toList) :
    (∀ key : FilterKey, key.kind ≠ .yesNo →
      (SpecialFilters.parse (key.word ++ ":\"" ++ v ++ "\"") = (SpecialFilters.single key v.toList, "") ↔
        ∀ k ∈ earlier FilterKey.all key, ¬Mentions k.word.toList k.kind.Opens v.toList)) ∧
    ∀ key : SidebarKey,
      (ActiveFilters.parse (key.word ++ ":\"" ++ v ++ "\"") = (ActiveFilters.single key (Text.lower v), "") ↔
        ∀ k ∈ earlier SidebarKey.all key, ¬Mentions k.word.toList OpensValue v.toList) := by
  have hchars : v.toList ≠ [] := by simpa using hne
  have htext : ∀ word : String, (word ++ ":\"" ++ v ++ "\"").toList = quotedFilter word.toList v.toList := by
    intro word
    simp [quotedFilter, opening]
  have hempty : ∀ cs : List Char, String.ofList cs = "" ↔ cs = [] := by simp
  constructor
  · intro key hkind
    rw [← SpecialFilters.parseChars_quoted_iff hkind hchars hquote, SpecialFilters.parse, htext]
    generalize SpecialFilters.parseChars (quotedFilter key.word.toList v.toList) = parsed
    simp only [Prod.ext_iff, hempty]
  · intro key
    rw [← ActiveFilters.parseChars_quoted_iff hchars hquote, ActiveFilters.parse, htext]
    generalize ActiveFilters.parseChars (quotedFilter key.word.toList v.toList) = parsed
    simp only [Prod.ext_iff, hempty, Text.lower]

/-- A value may mention keys that are looked for later. -/
theorem quoted_opaque_sample : "a folder:b" ≠ "" ∧ '"' ∉ "a folder:b".toList ∧
    SpecialFilters.parse "category:\"a folder:b\"" = ({ category := some "a folder:b" }, "") ∧
    ActiveFilters.parse "domain:\"a folder:b\"" = ({ domains := ["a folder:b"] }, "") := by
  have hne : "a folder:b" ≠ "" := by decide
  have hquote : '"' ∉ "a folder:b".toList := by decide
  obtain ⟨hspecial, hside⟩ := quoted_opaque_iff hne hquote
  have hcategory := (hspecial .category (by decide)).mpr fun k hk => absurd hk List.not_mem_nil
  have hdomain := (hside .domain).mpr fun k hk => absurd hk List.not_mem_nil
  have htexts : FilterKey.category.word ++ ":\"" ++ "a folder:b" ++ "\"" = "category:\"a folder:b\"" ∧
      SidebarKey.domain.word ++ ":\"" ++ "a folder:b" ++ "\"" = "domain:\"a folder:b\"" := by decide
  have hlower : Text.lower "a folder:b" = "a folder:b" := by decide +kernel
  have hsingle : SpecialFilters.single .category "a folder:b".toList = { category := some "a folder:b" } := by
    decide +kernel
  rw [htexts.1, hsingle] at hcategory
  rw [htexts.2, hlower] at hdomain
  exact ⟨hne, hquote, hcategory, hdomain⟩

/-- Keys that are looked for earlier take a part of the value away. -/
theorem not_quoted_opaque :
    SpecialFilters.parse "folder:\"a category:b\"" = ({ category := some "b\"", folder := some "\"a" }, "") ∧
    (ActiveFilters.parse "tag:\"a domain:b\"").1.domains = ["b\""] ∧
    (ActiveFilters.parse "tag:\"a domain:b\"").1.tags = ["\"a"] := by
  decide +kernel

end Shelfmark.Query
