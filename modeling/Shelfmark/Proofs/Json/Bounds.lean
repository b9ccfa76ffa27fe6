import Shelfmark.Json.Bounds
import Shelfmark.Proofs.Fallible
import Shelfmark.Proofs.Json.Proper

/-!
# What a host spells

A host spells a value exactly if its whole numbers are short and it is nested no deeper than there is room
(`checkBounds_eq_ok_iff`), and refuses it in one of two ways (`checkBounds_error`).  More room is never in the way
(`Within.mono`).
-/

namespace Shelfmark.Json

variable {room : Nat} {v : Json}

theorem isShort_iff {n : Int} : isShort n = true ↔ n.natAbs < Nat.pow 10 Decimal.maxIntDigits := by
  unfold isShort
  exact decide_eq_true_iff

/-- Whole numbers are short, and arrays and objects are nested no deeper than there is room. -/
inductive Within : Nat → Json → Prop
  | null {room : Nat} : Within room .null
  | bool {room : Nat} (b : Bool) : Within room (.bool b)
  | int {room : Nat} {n : Int} (h : isShort n = true) : Within room (.int n)
  | float {room : Nat} (x : Float) : Within room (.float x)
  | str {room : Nat} (s : String) : Within room (.str s)
  | arr {room : Nat} {items : List Json} (h : ∀ v ∈ items, Within room v) : Within (room + 1) (.arr items)
  | obj {room : Nat} {fields : List (String × Json)} (h : ∀ f ∈ fields, Within room f.2) :
      Within (room + 1) (.obj fields)

theorem Within.ofStrings {room : Nat} (xs : List String) : Within (room + 1) (Json.ofStrings xs) := by
  refine .arr fun v hv => ?_
  obtain ⟨s, _, rfl⟩ := List.mem_map.mp hv
  exact .str s

/-- A value is spelled where there is more room. -/
theorem Within.mono (h : Within room v) : ∀ {more : Nat}, room ≤ more → Within more v := by
  induction h with
  | null => exact fun _ => .null
  | bool b => exact fun _ => .bool b
  | int h => exact fun _ => .int h
  | float x => exact fun _ => .float x
  | str s => exact fun _ => .str s
  | arr _ ih =>
    intro more hmore
    obtain ⟨more, rfl⟩ := Nat.exists_eq_succ_of_ne_zero (show more ≠ 0 by omega)
    exact .arr fun v hv => ih v hv (by omega)
  | obj _ ih =>
    intro more hmore
    obtain ⟨more, rfl⟩ := Nat.exists_eq_succ_of_ne_zero (show more ≠ 0 by omega)
    exact .obj fun f hf => ih f hf (by omega)

/-- The fields of an object are spelled where it is. -/
theorem Within.field {fields : List (String × Json)} (h : Within room (.obj fields)) {f : String × Json}
    (hf : f ∈ fields) : Within room f.2 := by
  cases h with
  | obj h => exact (h f hf).mono (Nat.le_succ _)

theorem Within.get (h : Within room v) (key : String) : Within room (v.get key) := by
  rw [Json.get]
  cases hfield : v.get? key with
  | none => exact .null
  | some w =>
    cases v with
    | obj fields => exact h.field (mem_of_lookup hfield)
    | null | bool | int | float | str | arr => cases hfield

mutual
/-- What passes the check is within the bounds. -/
theorem within_of_checkBounds : ∀ {room : Nat} (v : Json), v.checkBounds room = .ok () → Within room v
  | _, .null, _ => .null
  | _, .bool b, _ => .bool b
  | _, .int n, h => by
    rw [checkBounds] at h
    split at h
    · exact .int ‹_›
    · cases h
  | _, .float x, _ => .float x
  | _, .str s, _ => .str s
  | 0, .arr items, h => by
    rw [checkBounds] at h
    cases h
  | room + 1, .arr items, h => by
    rw [checkBounds] at h
    exact .arr (within_of_checkItems items h)
  | 0, .obj fields, h => by
    rw [checkBounds] at h
    cases h
  | room + 1, .obj fields, h => by
    rw [checkBounds] at h
    exact .obj (within_of_checkFields fields h)

theorem within_of_checkItems : ∀ {room : Nat} (items : List Json), checkItems room items = .ok () →
    ∀ v ∈ items, Within room v
  | _, [], _ => fun _ hv => absurd hv List.not_mem_nil
  | room, x :: xs, h => by
    rw [checkItems] at h
    obtain ⟨_, hx, hxs⟩ := bind_eq_ok.mp h
    exact List.forall_mem_cons.mpr ⟨within_of_checkBounds x hx, within_of_checkItems xs hxs⟩

theorem within_of_checkFields : ∀ {room : Nat} (fields : List (String × Json)), checkFields room fields = .ok () →
    ∀ f ∈ fields, Within room f.2
  | _, [], _ => fun _ hf => absurd hf List.not_mem_nil
  | room, (k, v) :: fs, h => by
    rw [checkFields] at h
    obtain ⟨_, hv, hfs⟩ := bind_eq_ok.mp h
    exact List.forall_mem_cons.mpr ⟨within_of_checkBounds v hv, within_of_checkFields fs hfs⟩
end

theorem checkItems_of_all {items : List Json} (h : ∀ v ∈ items, v.checkBounds room = .ok ()) :
    checkItems room items = .ok () := by
  induction items with
  | nil => rfl
  | cons x xs ih =>
    rw [checkItems, h x List.mem_cons_self]
    exact ih fun v hv => h v (List.mem_cons_of_mem x hv)

theorem checkFields_of_all {fields : List (String × Json)} (h : ∀ f ∈ fields, f.2.checkBounds room = .ok ()) :
    checkFields room fields = .ok () := by
  induction fields with
  | nil => rfl
  | cons f fs ih =>
    rw [checkFields, h f List.mem_cons_self]
    exact ih fun g hg => h g (List.mem_cons_of_mem f hg)

/-- **A host spells a value exactly if it is within the bounds.** -/
theorem checkBounds_eq_ok_iff : v.checkBounds room = .ok () ↔ Within room v := by
  refine ⟨within_of_checkBounds v, fun h => ?_⟩
  induction h with
  | null | bool | float | str => rfl
  | int h => exact if_pos h
  | arr _ ih => exact checkItems_of_all ih
  | obj _ ih => exact checkFields_of_all ih

mutual
/-- **A value is refused for a number that is too long or for its depth.** -/
theorem checkBounds_error : ∀ {room : Nat} {e : Fault} (v : Json), v.checkBounds room = .error e →
    e = .numberTooLong ∨ e = .tooDeep
  | _, _, .null, h | _, _, .bool _, h | _, _, .float _, h | _, _, .str _, h => by cases h
  | _, _, .int n, h => by
    rw [checkBounds] at h
    split at h <;> cases h
    exact .inl rfl
  | 0, _, .arr items, h | 0, _, .obj items, h => by
    rw [checkBounds] at h
    cases h
    exact .inr rfl
  | room + 1, _, .arr items, h => by
    rw [checkBounds] at h
    exact checkItems_error items h
  | room + 1, _, .obj fields, h => by
    rw [checkBounds] at h
    exact checkFields_error fields h

theorem checkItems_error : ∀ {room : Nat} {e : Fault} (items : List Json), checkItems room items = .error e →
    e = .numberTooLong ∨ e = .tooDeep
  | _, _, [], h => by cases h
  | _, _, x :: xs, h => by
    rw [checkItems] at h
    rcases bind_eq_error.mp h with hx | ⟨_, _, hxs⟩
    · exact checkBounds_error x hx
    · exact checkItems_error xs hxs

theorem checkFields_error : ∀ {room : Nat} {e : Fault} (fields : List (String × Json)),
    checkFields room fields = .error e → e = .numberTooLong ∨ e = .tooDeep
  | _, _, [], h => by cases h
  | _, _, (_, v) :: fs, h => by
    rw [checkFields] at h
    rcases bind_eq_error.mp h with hv | ⟨_, _, hfs⟩
    · exact checkBounds_error v hv
    · exact checkFields_error fs hfs
end

/-! ## Spelling -/

theorem display_of_within (h : Within room v) : v.display room = .ok v.plainText := by
  rw [display, checkBounds_eq_ok_iff.mpr h]
  rfl

/-- Texts are spelled without any room. -/
@[simp] theorem display_str (room : Nat) (s : String) : (str s).display room = .ok s := display_of_within (.str s)

end Shelfmark.Json
