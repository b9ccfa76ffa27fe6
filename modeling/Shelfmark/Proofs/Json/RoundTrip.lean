import Shelfmark.Proofs.Json.Texts

/-!
# Values written and read back

A value without doubles, whose objects name no key twice, whose whole numbers are not too long and that is nested no
deeper than there is room, is read back from its text (`parse_compact`).  The induction is on the value, with what
follows its text as a parameter (`value_compact`): the reader stops where the text of the value ends.
-/

namespace Shelfmark.Json

/-- A value that is read back as it was written. -/
inductive Plain : Nat → Json → Prop
  | null {room : Nat} : Plain room .null
  | bool {room : Nat} (b : Bool) : Plain room (.bool b)
  | int {room : Nat} {n : Int} (h : (Nat.toDigits 10 n.natAbs).length ≤ Decimal.maxIntDigits) : Plain room (.int n)
  | str {room : Nat} (s : String) : Plain room (.str s)
  | arr {room : Nat} {items : List Json} (h : ∀ v ∈ items, Plain room v) : Plain (room + 1) (.arr items)
  | obj {room : Nat} {fields : List (String × Json)} (hn : (fields.map Prod.fst).Nodup)
      (h : ∀ f ∈ fields, Plain room f.2) : Plain (room + 1) (.obj fields)

theorem Plain.ofStrings {room : Nat} (xs : List String) : Plain (room + 1) (Json.ofStrings xs) := by
  refine .arr fun v hv => ?_
  obtain ⟨s, _, rfl⟩ := List.mem_map.mp hv
  exact .str s

variable {room : Nat} {v : Json} {n : Int} {rest : List Char}

/-! ## Words -/

theorem word?_of_ne {w : String} {c d : Char} {cs ds : List Char} (hw : w.toList = d :: ds) (h : d ≠ c) :
    word? w (c :: cs) = none := by
  simp [word?, hw, h]

/-- What begins a number begins no word. -/
theorem wordValue_number {cs : List Char} (h : BeginsNumber cs) : wordValue cs = number cs := by
  obtain ⟨c, ds, hcs, hletter⟩ := h.head
  have hnegative : word? "-Infinity" cs = none := by
    rcases h with ⟨d, es, rfl, hd⟩ | ⟨d, es, rfl, hd⟩
    · exact word?_of_ne (d := '-') rfl (by rintro rfl; exact absurd hd (by decide))
    · have hne : 'I' ≠ d := by
        rintro rfl
        exact absurd hd (by decide)
      simp [word?, hne]
  rw [hcs] at hnegative ⊢
  simp only [wordValue, hnegative, word?_of_ne (w := "null") rfl (hletter 'n' (by decide) (by decide)),
    word?_of_ne (w := "true") rfl (hletter 't' (by decide) (by decide)),
    word?_of_ne (w := "false") rfl (hletter 'f' (by decide) (by decide)),
    word?_of_ne (w := "NaN") rfl (hletter 'N' (by decide) (by decide)),
    word?_of_ne (w := "Infinity") rfl (hletter 'I' (by decide) (by decide))]

/-! ## Where texts begin -/

/-- What a value may begin with: no blank and no closing bracket. -/
def Begins (cs : List Char) : Prop := ∃ c rest, cs = c :: rest ∧ isSpace c = false ∧ c ≠ ']' ∧ c ≠ '\x7d'

theorem Begins.append {cs : List Char} (h : Begins cs) (rest : List Char) : Begins (cs ++ rest) := by
  obtain ⟨c, ds, rfl, hc⟩ := h
  exact ⟨c, ds ++ rest, rfl, hc⟩

theorem Begins.skipSpace {cs : List Char} (h : Begins cs) : skipSpace cs = cs := by
  obtain ⟨c, ds, rfl, hc, _⟩ := h
  simp [Json.skipSpace, hc]

theorem toList_quote (s : String) : (quote s).toList = '"' :: (s.toList.flatMap escapeChar ++ ['"']) := by
  simp [quote]

theorem begins_compact (h : Plain room v) : Begins v.compact.toList := by
  cases h with
  | null => exact ⟨'n', _, rfl, by decide⟩
  | bool b => cases b <;> exact ⟨_, _, rfl, by decide⟩
  | @int _ n =>
    obtain ⟨c, cs, htext, hne⟩ := (beginsNumber_toString n).head
    have hspace : isSpace c = false := by
      simp [isSpace, (hne ' ' (by decide) (by decide)).symm, (hne '\n' (by decide) (by decide)).symm,
        (hne '\r' (by decide) (by decide)).symm, (hne '\t' (by decide) (by decide)).symm]
    exact ⟨c, cs, htext, hspace, (hne ']' (by decide) (by decide)).symm, (hne '\x7d' (by decide) (by decide)).symm⟩
  | str s => exact ⟨'"', _, toList_quote s, by decide⟩
  | @arr _ items =>
    cases items <;> exact ⟨'[', _, by simp only [compact, String.toList_append]; rfl, by decide⟩
  | @obj _ fields =>
    cases fields <;> exact ⟨'\x7b', _, by simp only [compact, String.toList_append]; rfl, by decide⟩

/-! ## Values -/

/-- The value is read from its text, whatever follows, with as much fuel as the text has characters. -/
def ReadsBack (room : Nat) (v : Json) : Prop := ∀ (fuel : Nat) (rest : List Char),
  v.compact.toList.length ≤ fuel → Ends rest → value fuel room (v.compact.toList ++ rest) = .ok (v, rest)

theorem ends_comma (rest : List Char) : Ends (',' :: rest) := by simp [Ends]

theorem ends_bracket (rest : List Char) : Ends (']' :: rest) := by simp [Ends]

theorem ends_brace (rest : List Char) : Ends ('\x7d' :: rest) := by simp [Ends]

theorem toList_compactItems (x : Json) (xs : List Json) : (compactItems (x :: xs)).toList =
    ',' :: ' ' :: (x.compact.toList ++ (compactItems xs).toList) := by
  simp [compactItems]

/-- What is read behind an item. -/
def afterItem (fuel room : Nat) (v : Json) (rest : List Char) : Except Fault (List Json × List Char) :=
  match skipSpace rest with
  | ']' :: r => .ok ([v], r)
  | ',' :: r => (items fuel room (skipSpace r)).map fun (vs, r) => (v :: vs, r)
  | _ => .error .malformedText

/-- The first item is read, and then what follows it. -/
theorem items_step {fuel : Nat} (hv : ReadsBack room v) (hfuel : v.compact.toList.length ≤ fuel) (hends : Ends rest) :
    items (fuel + 1) room (v.compact.toList ++ rest) = afterItem fuel room v rest := by
  rw [items, hv fuel rest hfuel hends]
  rfl

/-- **The items of an array are read back,** one after the other. -/
theorem items_compact {vs : List Json} {fuel : Nat} (rest : List Char)
    (h : ∀ w ∈ v :: vs, Plain room w ∧ ReadsBack room w)
    (hfuel : v.compact.toList.length + (compactItems vs).toList.length < fuel) :
    items fuel room (v.compact.toList ++ ((compactItems vs).toList ++ ']' :: rest)) = .ok (v :: vs, rest) := by
  induction vs generalizing v fuel with
  | nil =>
    obtain ⟨fuel, rfl⟩ : ∃ m, fuel = m + 1 := ⟨fuel - 1, by omega⟩
    have htext : (compactItems []).toList ++ ']' :: rest = ']' :: rest := rfl
    rw [htext, items_step (h v List.mem_cons_self).2 (by omega) (ends_bracket rest)]
    rfl
  | cons x xs ih =>
    obtain ⟨fuel, rfl⟩ : ∃ m, fuel = m + 1 := ⟨fuel - 1, by omega⟩
    rw [toList_compactItems, List.length_cons, List.length_cons, List.length_append] at hfuel
    have hx : ∀ cs, skipSpace (' ' :: (x.compact.toList ++ cs)) = x.compact.toList ++ cs := fun cs =>
      ((begins_compact (h x (by simp)).1).append cs).skipSpace
    have hrest := ih (fun w hw => h w (List.mem_cons_of_mem v hw)) (show _ < fuel by omega)
    rw [items_step (h v List.mem_cons_self).2 (by omega) (toList_compactItems _ _ ▸ ends_comma _), toList_compactItems]
    show (items fuel room (skipSpace (' ' :: (x.compact.toList ++ (compactItems xs).toList ++ ']' :: rest)))).map _ = _
    rw [List.append_assoc, hx, hrest]
    rfl

theorem setField_of_not_mem {key : String} : ∀ {fields : List (String × Json)}, key ∉ fields.map Prod.fst →
    setField key v fields = fields ++ [(key, v)]
  | [], _ => rfl
  | (k, w) :: fields, h => by
    rw [List.map_cons, List.mem_cons, not_or] at h
    have hne : (k == key) = false := beq_eq_false_iff_ne.mpr (Ne.symm h.1)
    simp only [setField, hne, Bool.false_eq_true, if_false, setField_of_not_mem h.2, List.cons_append]

theorem toList_compactFields (key : String) (v : Json) (fs : List (String × Json)) :
    (compactFields ((key, v) :: fs)).toList = ',' :: ' ' :: ((quote key).toList ++
      (':' :: ' ' :: (v.compact.toList ++ (compactFields fs).toList))) := by
  simp [compactFields]

/-- What is read behind a field. -/
def afterField (fuel room : Nat) (done : List (String × Json)) (rest : List Char) :
    Except Fault (List (String × Json) × List Char) :=
  match skipSpace rest with
  | '\x7d' :: r => .ok (done, r)
  | ',' :: r => fields fuel room done (skipSpace r)
  | _ => .error .malformedText

/-- The first field is read, and then what follows it. -/
theorem fields_step {fs done : List (String × Json)} {key : String} {fuel : Nat}
    (hv : Plain room v ∧ ReadsBack room v) (hn : ((done ++ (key, v) :: fs).map Prod.fst).Nodup)
    (hfuel : v.compact.toList.length ≤ fuel) (hends : Ends rest) :
    fields (fuel + 1) room done ((quote key).toList ++ (':' :: ' ' :: (v.compact.toList ++ rest))) =
      afterField fuel room (done ++ [(key, v)]) rest := by
  have hkey : key ∉ done.map Prod.fst := by
    rw [List.map_append, List.nodup_append] at hn
    exact fun hmem => hn.2.2 key hmem key List.mem_cons_self rfl
  have hblank : skipSpace (' ' :: (v.compact.toList ++ rest)) = v.compact.toList ++ rest :=
    ((begins_compact hv.1).append rest).skipSpace
  have hcolon : ∀ cs, skipSpace (':' :: cs) = ':' :: cs := fun _ => rfl
  have hread := hv.2 fuel rest hfuel hends
  rw [toList_quote, List.cons_append, List.append_assoc, fields, List.singleton_append, textBody_quoted]
  simp only [hcolon, hblank, hread, String.ofList_toList, setField_of_not_mem hkey]
  rfl

/-- **The fields of an object are read back,** one after the other, behind those that were read before. -/
theorem fields_compact {fs : List (String × Json)} {key : String} {fuel : Nat} (done : List (String × Json))
    (rest : List Char) (h : ∀ f ∈ (key, v) :: fs, Plain room f.2 ∧ ReadsBack room f.2)
    (hn : ((done ++ (key, v) :: fs).map Prod.fst).Nodup)
    (hfuel : (quote key).toList.length + v.compact.toList.length + (compactFields fs).toList.length < fuel) :
    fields fuel room done ((quote key).toList ++
      (':' :: ' ' :: (v.compact.toList ++ ((compactFields fs).toList ++ '\x7d' :: rest)))) =
      .ok (done ++ (key, v) :: fs, rest) := by
  induction fs generalizing done key v fuel with
  | nil =>
    obtain ⟨fuel, rfl⟩ : ∃ m, fuel = m + 1 := ⟨fuel - 1, by omega⟩
    have hv : Plain room v ∧ ReadsBack room v := h (key, v) List.mem_cons_self
    have htext : (compactFields []).toList ++ '\x7d' :: rest = '\x7d' :: rest := rfl
    rw [htext, fields_step hv hn (by omega) (ends_brace rest)]
    rfl
  | cons f fs ih =>
    obtain ⟨fuel, rfl⟩ : ∃ m, fuel = m + 1 := ⟨fuel - 1, by omega⟩
    have hv : Plain room v ∧ ReadsBack room v := h (key, v) List.mem_cons_self
    obtain ⟨key', v'⟩ := f
    rw [toList_compactFields, List.length_cons, List.length_cons, List.length_append, List.length_cons,
      List.length_cons, List.length_append] at hfuel
    have hquote : ∀ cs, skipSpace (' ' :: ((quote key').toList ++ cs)) = (quote key').toList ++ cs := by
      intro cs
      rw [toList_quote]
      rfl
    have hrest := ih (done ++ [(key, v)]) (fun f hf => h f (List.mem_cons_of_mem _ hf)) (by simpa using hn)
      (show _ < fuel by omega)
    rw [List.append_assoc, List.singleton_append] at hrest
    rw [← hrest, fields_step hv hn (by omega) (toList_compactFields _ _ _ ▸ ends_comma _),
      toList_compactFields]
    show fields fuel room _ (skipSpace _) = _
    simp [hquote]

theorem value_int {fuel : Nat} (hn : (Nat.toDigits 10 n.natAbs).length ≤ Decimal.maxIntDigits) (hends : Ends rest) :
    value (fuel + 1) room ((toString n).toList ++ rest) = .ok (int n, rest) := by
  have hbegins := (beginsNumber_toString n).append rest
  have hread := number_int hn hends
  rw [← wordValue_number hbegins] at hread
  obtain ⟨c, cs, htext, hne⟩ := hbegins.head
  rw [htext] at hread ⊢
  rw [value, hread]
  all_goals
    rintro r he
    exact hne _ (by decide) (by decide) (List.cons.inj he).1.symm

/-- An array with items is read by reading its items. -/
theorem value_arr {fuel : Nat} {cs : List Char} (h : Begins cs) :
    value (fuel + 1) (room + 1) ('[' :: cs) = (items fuel room cs).map fun (xs, r) => (arr xs, r) := by
  rw [value, h.skipSpace]
  obtain ⟨c, ds, rfl, _, hc, _⟩ := h
  split
  · rename_i he
    exact absurd (List.cons.inj he).1 hc
  · rfl

/-- An object with fields is read by reading its fields. -/
theorem value_obj {fuel : Nat} {cs : List Char} (h : Begins cs) :
    value (fuel + 1) (room + 1) ('\x7b' :: cs) = (fields fuel room [] cs).map fun (fs, r) => (obj fs, r) := by
  rw [value, h.skipSpace]
  obtain ⟨c, ds, rfl, _, _, hc⟩ := h
  split
  · rename_i he
    exact absurd (List.cons.inj he).1 hc
  · rfl

/-- The text of a value is not empty, so there is fuel. -/
theorem readsBack_of_succ (h : Plain room v) (hread : ∀ (fuel : Nat) (rest : List Char),
    v.compact.toList.length ≤ fuel + 1 → Ends rest → value (fuel + 1) room (v.compact.toList ++ rest) = .ok (v, rest)) :
    ReadsBack room v := by
  intro fuel rest hfuel hends
  obtain ⟨c, cs, htext, _⟩ := begins_compact h
  obtain ⟨m, rfl⟩ : ∃ m, fuel = m + 1 := by
    rw [htext, List.length_cons] at hfuel
    exact ⟨fuel - 1, by omega⟩
  exact hread m rest hfuel hends

/-- **A plain value is read from its text, whatever follows.** -/
theorem value_compact (h : Plain room v) : ReadsBack room v := by
  induction h with
  | null => exact readsBack_of_succ .null fun _ _ _ _ => rfl
  | bool b => exact readsBack_of_succ (.bool b) fun _ _ _ _ => by cases b <;> rfl
  | int hn => exact readsBack_of_succ (.int hn) fun _ _ _ hends => value_int hn hends
  | str s =>
    refine readsBack_of_succ (.str s) fun _ _ _ _ => ?_
    have htext : (Json.str s).compact.toList = '"' :: (s.toList.flatMap escapeChar ++ ['"']) := toList_quote s
    rw [htext, List.cons_append, List.append_assoc, value, List.singleton_append, textBody_quoted]
    show Except.ok (Json.str (String.ofList s.toList), _) = _
    rw [String.ofList_toList]
  | @arr room items h ih =>
    refine readsBack_of_succ (.arr h) fun fuel rest hfuel _ => ?_
    cases items with
    | nil => rfl
    | cons x xs =>
      have htext : (Json.arr (x :: xs)).compact.toList ++ rest =
          '[' :: (x.compact.toList ++ ((compactItems xs).toList ++ ']' :: rest)) := by simp [compact]
      have hlength := congrArg List.length htext
      simp only [List.length_append, List.length_cons] at hlength
      have hback : ∀ v ∈ x :: xs, Plain room v ∧ ReadsBack room v := fun v hv => ⟨h v hv, ih v hv⟩
      rw [htext, value_arr ((begins_compact (h x List.mem_cons_self)).append _),
        items_compact rest hback (by omega)]
      rfl
  | @obj room fields hn h ih =>
    refine readsBack_of_succ (.obj hn h) fun fuel rest hfuel _ => ?_
    cases fields with
    | nil => rfl
    | cons f fs =>
      obtain ⟨key, v⟩ := f
      have htext : (Json.obj ((key, v) :: fs)).compact.toList ++ rest = '\x7b' :: ((quote key).toList ++
          (':' :: ' ' :: (v.compact.toList ++ ((compactFields fs).toList ++ '\x7d' :: rest)))) := by simp [compact]
      have hlength := congrArg List.length htext
      simp only [List.length_append, List.length_cons] at hlength
      have hbegins : Begins (quote key).toList := ⟨'"', _, toList_quote key, by decide⟩
      have hback : ∀ f ∈ (key, v) :: fs, Plain room f.2 ∧ ReadsBack room f.2 := fun f hf => ⟨h f hf, ih f hf⟩
      rw [htext, value_obj (hbegins.append _), fields_compact [] rest hback hn (by omega)]
      rfl

/-- **A plain value is read back from its text.** -/
theorem parse_compact (h : Plain room v) : parse room v.compact = .ok v := by
  have hread := value_compact h (2 * v.compact.toList.length + 1) [] (by omega) (by simp [Ends])
  rw [List.append_nil] at hread
  rw [parse, (begins_compact h).skipSpace]
  simp only [hread]
  rfl

end Shelfmark.Json
