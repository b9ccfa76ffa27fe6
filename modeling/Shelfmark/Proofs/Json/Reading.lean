import Mathlib.Data.List.TakeWhile
import Shelfmark.Json.Reader
import Shelfmark.Proofs.Decimal.Digits
import Shelfmark.Proofs.Json.Bounds
import Shelfmark.Proofs.Json.Proper

/-!
# What is read

A text is read as a value or refused in one of four ways (`parse_error`).  The reader makes values from short whole
numbers, doubles, words and texts, one level of the room for each array and each object, whose keys it keeps different
(`Made`).  So what is read has no object that names a key twice (`proper_of_parse`), and it is spelled wherever it was
read (`within_of_parse`).  Less room changes what is read only by giving up (`parse_agrees`).
-/

namespace Shelfmark.Json

variable {room : Nat} {v : Json} {e : Fault}

/-- What the reader makes where there is some room. -/
inductive Made : Nat → Json → Prop
  | null {room : Nat} : Made room .null
  | bool {room : Nat} (b : Bool) : Made room (.bool b)
  | int {room : Nat} {n : Int} (h : isShort n = true) : Made room (.int n)
  | float {room : Nat} (x : Float) : Made room (.float x)
  | str {room : Nat} (s : String) : Made room (.str s)
  | arr {room : Nat} {items : List Json} (h : ∀ v ∈ items, Made room v) : Made (room + 1) (.arr items)
  | obj {room : Nat} {fields : List (String × Json)} (hn : (fields.map Prod.fst).Nodup)
      (h : ∀ f ∈ fields, Made room f.2) : Made (room + 1) (.obj fields)

theorem Made.within (h : Made room v) : Within room v := by
  induction h with
  | null => exact .null
  | bool b => exact .bool b
  | int h => exact .int h
  | float x => exact .float x
  | str s => exact .str s
  | arr _ ih => exact .arr ih
  | obj _ _ ih => exact .obj ih

/-! ## Words and numbers -/

/-- A number is as long as its digits say. -/
theorem isShort_of_digits {ds : List Char} (h : ∀ c ∈ ds, c.isDigit = true)
    (hlength : ds.length ≤ Decimal.maxIntDigits) {n : Int}
    (hn : n.natAbs = Decimal.ofDigits (ds.map fun c => c.toNat - 48)) : isShort n = true := by
  have hvalue : Decimal.ofDigits (ds.map fun c => c.toNat - 48) = Nat.ofDigitChars 10 ds 0 := by
    rw [Decimal.ofDigits, List.foldl_map]
    rfl
  have hlt : n.natAbs < 10 ^ ds.length := by
    rw [hn, hvalue]
    exact Decimal.ofDigitChars_lt h
  rw [isShort_iff]
  -- so that the power is never written out
  generalize Decimal.maxIntDigits = most at hlength ⊢
  exact Nat.lt_of_lt_of_le hlt (Nat.pow_le_pow_right (by decide) hlength)

theorem isDigit_of_wholePart? {cs whole rest : List Char} (h : wholePart? cs = some (whole, rest)) :
    ∀ c ∈ whole, c.isDigit = true := by
  unfold wholePart? at h
  split at h
  · cases h
    exact List.forall_mem_singleton.mpr rfl
  · split at h <;> cases h
    exact fun c hc => List.mem_takeWhile_imp hc
  · cases h

theorem made_number {cs rest : List Char} (h : number cs = .ok (v, rest)) : Made room v := by
  unfold number at h
  split at h
  rename_i negative _ _
  split at h
  · cases h
  · rename_i whole _ hwhole
    split at h
    split at h
    split at h
    · split at h
      · cases h
      · rename_i hlength
        cases h
        refine .int (isShort_of_digits (isDigit_of_wholePart? hwhole) (Nat.not_lt.mp hlength) ?_)
        cases negative
        · rfl
        · exact Int.natAbs_neg _
    · cases h
      exact .float _

theorem made_wordValue {cs rest : List Char} (h : wordValue cs = .ok (v, rest)) : Made room v := by
  unfold wordValue at h
  split at h
  · cases h; exact .null
  · cases h; exact .bool true
  · cases h; exact .bool false
  · split at h
    · cases h; exact .float _
    · cases h; exact .float _
    · cases h; exact .float _
    · exact made_number h

/-! ## Values -/

/-- A field that is set keeps the names different and the values as they are made. -/
theorem made_setField {done : List (String × Json)} (key : String)
    (hdone : (done.map Prod.fst).Nodup ∧ ∀ f ∈ done, Made room f.2) (hv : Made room v) :
    ((setField key v done).map Prod.fst).Nodup ∧ ∀ f ∈ setField key v done, Made room f.2 := by
  refine ⟨nodup_setField hdone.1, fun f hf => ?_⟩
  rcases mem_setField hf with he | hf
  · exact he ▸ hv
  · exact hdone.2 f hf

mutual

theorem made_value : ∀ {fuel room : Nat} {cs rest : List Char} {v : Json},
    value fuel room cs = .ok (v, rest) → Made room v
  | 0, _, _, _, _, h => by cases h
  | fuel + 1, room, cs, rest, v, h => by
    unfold value at h
    split at h
    · obtain ⟨p, _, he⟩ := map_eq_ok.mp h
      cases he
      exact .str _
    · split at h
      · cases h
      · split at h
        · cases h
          exact .arr fun _ hv => absurd hv List.not_mem_nil
        · obtain ⟨p, hp, he⟩ := map_eq_ok.mp h
          cases he
          exact .arr (made_items hp)
    · split at h
      · cases h
      · rename_i room
        have hnone : (([] : List (String × Json)).map Prod.fst).Nodup ∧
            ∀ f ∈ ([] : List (String × Json)), Made room f.2 :=
          ⟨List.nodup_nil, fun _ hf => absurd hf List.not_mem_nil⟩
        split at h
        · cases h
          exact .obj hnone.1 hnone.2
        · obtain ⟨p, hp, he⟩ := map_eq_ok.mp h
          cases he
          obtain ⟨hnames, hmade⟩ := made_fields hnone hp
          exact .obj hnames hmade
    · exact made_wordValue h

theorem made_items : ∀ {fuel room : Nat} {cs rest : List Char} {vs : List Json},
    items fuel room cs = .ok (vs, rest) → ∀ v ∈ vs, Made room v
  | 0, _, _, _, _, h => by cases h
  | fuel + 1, room, cs, rest, vs, h => by
    unfold items at h
    split at h
    · cases h
    · rename_i x rest' hx
      have hfirst : Made room x := made_value hx
      split at h
      · cases h
        exact List.forall_mem_singleton.mpr hfirst
      · obtain ⟨p, hp, he⟩ := map_eq_ok.mp h
        cases he
        exact List.forall_mem_cons.mpr ⟨hfirst, made_items hp⟩
      · cases h

/-- What is read behind the fields `done`. -/
theorem made_fields : ∀ {fuel room : Nat} {done fs : List (String × Json)} {cs rest : List Char},
    ((done.map Prod.fst).Nodup ∧ ∀ f ∈ done, Made room f.2) → fields fuel room done cs = .ok (fs, rest) →
    (fs.map Prod.fst).Nodup ∧ ∀ f ∈ fs, Made room f.2
  | 0, _, _, _, _, _, _, h => by cases h
  | fuel + 1, room, done, fs, cs, rest, hdone, h => by
    unfold fields at h
    split at h
    · split at h
      · cases h
      · rename_i key _ _
        split at h
        · split at h
          · cases h
          · rename_i v _ hv
            have hset := made_setField (String.ofList key) hdone (made_value hv)
            dsimp only at h
            split at h
            · cases h
              exact hset
            · exact made_fields hset h
            · cases h
        · cases h
    · cases h

end

theorem made_of_parse {s : String} (h : parse room s = .ok v) : Made room v := by
  rw [parse] at h
  split at h
  · rename_i hread
    split at h <;> cases h
    exact made_value hread
  · cases h

/-- **What is read is spelled where it was read.** -/
theorem within_of_parse {s : String} (h : parse room s = .ok v) : Within room v := (made_of_parse h).within

/-! ## What is not read -/

/-- Why a text is not read. -/
def IsUnread (e : Fault) : Prop :=
  e = .malformedText ∨ e = .numberTooLong ∨ e = .loneSurrogate ∨ e = .tooDeep

theorem unread_textBody {pending : Option Nat} {cs : List Char} : textBody pending cs = .error e → IsUnread e := by
  fun_induction textBody pending cs <;> intro h
  case case1 | case4 | case10 | case13 =>
    cases h
    exact .inl rfl
  case case2 | case6 | case8 | case11 | case14 =>
    cases h
    exact .inr (.inr (.inl rfl))
  case case3 => cases h
  case case5 ih | case9 ih | case12 ih | case15 ih => exact ih (map_eq_error.mp h)
  case case7 ih => exact ih h

theorem unread_wordValue {cs : List Char} (h : wordValue cs = .error e) : IsUnread e := by
  unfold wordValue at h
  split at h
  · cases h
  · cases h
  · cases h
  · split at h
    · cases h
    · cases h
    · cases h
    · unfold number at h
      split at h
      split at h
      · cases h
        exact .inl rfl
      · split at h
        split at h
        split at h
        · split at h <;> cases h
          exact .inr (.inl rfl)
        · cases h

theorem unread_malformedText : IsUnread .malformedText := .inl rfl

theorem unread_tooDeep : IsUnread .tooDeep := .inr (.inr (.inr rfl))

mutual

theorem unread_value : ∀ {fuel room : Nat} {cs : List Char}, value fuel room cs = .error e → IsUnread e
  | 0, _, _, h => by cases h; exact unread_malformedText
  | fuel + 1, room, cs, h => by
    unfold value at h
    split at h
    · exact unread_textBody (map_eq_error.mp h)
    · split at h
      · cases h
        exact unread_tooDeep
      · split at h
        · cases h
        · exact unread_items (map_eq_error.mp h)
    · split at h
      · cases h
        exact unread_tooDeep
      · split at h
        · cases h
        · exact unread_fields (map_eq_error.mp h)
    · exact unread_wordValue h

theorem unread_items : ∀ {fuel room : Nat} {cs : List Char}, items fuel room cs = .error e → IsUnread e
  | 0, _, _, h => by cases h; exact unread_malformedText
  | fuel + 1, room, cs, h => by
    unfold items at h
    split at h
    · rename_i hx
      cases h
      exact unread_value hx
    · split at h
      · cases h
      · exact unread_items (map_eq_error.mp h)
      · cases h
        exact unread_malformedText

theorem unread_fields : ∀ {fuel room : Nat} {done : List (String × Json)} {cs : List Char},
    fields fuel room done cs = .error e → IsUnread e
  | 0, _, _, _, h => by cases h; exact unread_malformedText
  | fuel + 1, room, done, cs, h => by
    unfold fields at h
    split at h
    · split at h
      · rename_i hkey
        cases h
        exact unread_textBody hkey
      · split at h
        · split at h
          · rename_i hv
            cases h
            exact unread_value hv
          · dsimp only at h
            split at h
            · cases h
            · exact unread_fields h
            · cases h
              exact unread_malformedText
        · cases h
          exact unread_malformedText
    · cases h
      exact unread_malformedText

end

/-- The reader gives up for depth, or it does what it does where there is more room. -/
def Agrees {α : Type} (here there : Except Fault α) : Prop := here = .error .tooDeep ∨ here = there

theorem Agrees.map {α β : Type} {here there : Except Fault α} (h : Agrees here there) (f : α → β) :
    Agrees (here.map f) (there.map f) := by
  rcases h with rfl | rfl
  · exact .inl rfl
  · exact .inr rfl

mutual

theorem value_agrees : ∀ (fuel : Nat) {room more : Nat} (cs : List Char), room ≤ more →
    Agrees (value fuel room cs) (value fuel more cs)
  | 0, _, _, _, _ => .inr rfl
  | fuel + 1, 0, more, cs, _ => by
    unfold value
    split
    · exact .inr rfl
    · exact .inl rfl
    · exact .inl rfl
    · exact .inr rfl
  | fuel + 1, room + 1, 0, cs, h => absurd h (Nat.not_succ_le_zero room)
  | fuel + 1, room + 1, more + 1, cs, h => by
    have hle : room ≤ more := Nat.le_of_succ_le_succ h
    unfold value
    split
    · exact .inr rfl
    · dsimp only
      split
      · exact .inr rfl
      · exact (items_agrees _ hle).map _
    · dsimp only
      split
      · exact .inr rfl
      · exact (fields_agrees _ _ hle).map _
    · exact .inr rfl

theorem items_agrees : ∀ {fuel room more : Nat} (cs : List Char), room ≤ more →
    Agrees (items fuel room cs) (items fuel more cs)
  | 0, _, _, _, _ => .inr rfl
  | fuel + 1, room, more, cs, h => by
    unfold items
    rcases value_agrees fuel cs h with hdeep | hsame
    · rw [hdeep]
      exact .inl rfl
    · rw [hsame]
      split
      · exact .inr rfl
      · split
        · exact .inr rfl
        · exact (items_agrees _ h).map _
        · exact .inr rfl

theorem fields_agrees : ∀ {fuel room more : Nat} (done : List (String × Json)) (cs : List Char), room ≤ more →
    Agrees (fields fuel room done cs) (fields fuel more done cs)
  | 0, _, _, _, _, _ => .inr rfl
  | fuel + 1, room, more, done, cs, h => by
    unfold fields
    split
    · split
      · exact .inr rfl
      · split
        · rename_i rest _
          rcases value_agrees fuel (skipSpace rest) h with hdeep | hsame
          · rw [hdeep]
            exact .inl rfl
          · rw [hsame]
            split
            · exact .inr rfl
            · dsimp only
              split
              · exact .inr rfl
              · exact fields_agrees _ _ h
              · exact .inr rfl
        · exact .inr rfl
    · exact .inr rfl

end

/-- **Where there is less room a text is read as where there is more, unless it is nested too deep.** -/
theorem parse_agrees {s : String} {more : Nat} (h : room ≤ more) : Agrees (parse room s) (parse more s) := by
  rw [parse, parse]
  rcases value_agrees (2 * s.toList.length + 1) (skipSpace s.toList) h with hdeep | hsame
  · rw [hdeep]
    exact .inl rfl
  · rw [hsame]
    exact .inr rfl

/-- Nothing is read from more brackets than there is room for. -/
theorem value_brackets (rest : List Char) : ∀ {room fuel : Nat}, 2 * room < fuel →
    value fuel room (List.replicate (room + 1) '[' ++ rest) = .error .tooDeep
  | _, 0, h => absurd h (Nat.not_lt_zero _)
  | 0, _ + 1, _ => rfl
  | _ + 1, 1, h => absurd h (by omega)
  | room + 1, fuel + 2, h => by
    have hinner : value fuel room (List.replicate (room + 1) '[' ++ rest) = .error .tooDeep :=
      value_brackets rest (by omega)
    have hitems : items (fuel + 1) room (List.replicate (room + 1) '[' ++ rest) = .error .tooDeep := by
      rw [items, hinner]
    rw [List.replicate_succ, List.cons_append, value]
    show (items (fuel + 1) room (List.replicate (room + 1) '[' ++ rest)).map _ = _
    rw [hitems]
    rfl

theorem parse_brackets (rest : List Char) :
    parse room (String.ofList (List.replicate (room + 1) '[' ++ rest)) = .error .tooDeep := by
  have hskip : skipSpace (List.replicate (room + 1) '[' ++ rest) = List.replicate (room + 1) '[' ++ rest := rfl
  rw [parse, String.toList_ofList]
  simp only [hskip, value_brackets rest (show 2 * room <
    2 * (List.replicate (room + 1) '[' ++ rest).length + 1 by simp; omega)]

end Shelfmark.Json
