import Mathlib.Data.List.Basic
import Mathlib.Data.List.TakeWhile
import Shelfmark.Url

/-!
# Written addresses

An address is written from a scheme, a host and a path, and it may have a user, a port, a query and a fragment
(`Written`).  It is cut at the first of the characters that begin its parts, and none of these stands in an earlier part
(`cut_append`, `cut_of_notMem`, `behindLast_append`).  So every written address is split into its parts
(`splitChars?_chars`), its host is found (`rawHost_authority`), and its canonical form is host and path, each without
what is left out of it (`WithoutFront`, `WithoutEnd`, `canonical?_text`).
-/

namespace Shelfmark

namespace Text

/-- ASCII characters are lowered one by one. -/
theorem lowerFrom_ascii : ∀ (before : List Char) {cs : List Char}, (∀ c ∈ cs, c.toNat < 128) →
    lowerFrom before cs = cs.map Char.toLower
  | _, [], _ => rfl
  | before, c :: rest, h => by
    have hc : lowerIn before c rest = [c.toLower] := if_pos (h c List.mem_cons_self)
    rw [lowerFrom, hc, lowerFrom_ascii _ fun d hd => h d (List.mem_cons_of_mem c hd)]
    rfl

theorem lowerChars_ascii {cs : List Char} (h : ∀ c ∈ cs, c.toNat < 128) : lowerChars cs = cs.map Char.toLower :=
  lowerFrom_ascii [] h

end Text

namespace Url

/-! ## Characters -/

/-- A printable ASCII character that is no blank. -/
def isVisible (c : Char) : Bool := 0x21 ≤ c.toNat && c.toNat ≤ 0x7e

/-- A character of a user: no delimiter of an address. -/
def isUserChar (c : Char) : Bool := isVisible c && !(['/', '?', '#', '@', '[', ']'].contains c)

/-- A character of a host. -/
def isHostChar (c : Char) : Bool := c.isAlphanum || c == '.' || c == '-'

/-- A character of a path. -/
def isPathChar (c : Char) : Bool := isVisible c && c != '?' && c != '#'

/-- A character of a query. -/
def isQueryChar (c : Char) : Bool := isVisible c && c != '#'

/-! ## Written addresses -/

/-- The parts of an address as they are written. -/
structure Written where
  scheme : List Char
  user : Option (List Char) := none
  host : List Char
  port : Option (List Char) := none
  path : List Char := []
  query : Option (List Char) := none
  fragment : Option (List Char) := none
  scheme_begins : scheme.head?.any Char.isAlpha = true := by decide
  scheme_chars : scheme.all isSchemeChar = true := by decide
  user_chars : user.all (·.all isUserChar) = true := by decide
  host_ne_nil : host ≠ [] := by decide
  host_chars : host.all isHostChar = true := by decide
  port_chars : port.all (·.all Char.isDigit) = true := by decide
  path_begins : path.head?.all (· == '/') = true := by decide
  path_chars : path.all isPathChar = true := by decide
  query_chars : query.all (·.all isQueryChar) = true := by decide
  fragment_chars : fragment.all (·.all isVisible) = true := by decide

/-- All characters of a part that may be missing. -/
theorem forall_of_all {p : Char → Bool} {part : Option (List Char)} (h : part.all (·.all p) = true) :
    ∀ q ∈ part, ∀ c ∈ q, p c = true := by
  rintro q rfl
  exact List.all_eq_true.mp h

/-- A part behind its delimiter; nothing for a missing part. -/
def behindSign (sign : Char) : Option (List Char) → List Char
  | none => []
  | some part => sign :: part

namespace Written

variable (w : Written)

/-- Host and port. -/
def placeChars : List Char := w.host ++ behindSign ':' w.port

/-- The user, host and port. -/
def authorityChars : List Char :=
  match w.user with
  | none => w.placeChars
  | some u => u ++ '@' :: w.placeChars

/-- What follows the authority. -/
def restChars : List Char := w.path ++ behindSign '?' w.query ++ behindSign '#' w.fragment

/-- The characters of the address. -/
def chars : List Char := w.scheme ++ ':' :: '/' :: '/' :: (w.authorityChars ++ w.restChars)

/-- The text of the address. -/
def text : String := String.ofList w.chars

end Written

/-! ## Cutting -/

variable {c : Char} {as bs : List Char}

theorem cut_of_notMem : ∀ {as : List Char}, c ∉ as → cut c as = (as, none)
  | [], _ => rfl
  | d :: rest, h => by
    obtain ⟨hne, hrest⟩ := List.ne_and_not_mem_of_not_mem_cons h
    have hd : (d == c) = false := beq_eq_false_iff_ne.mpr (Ne.symm hne)
    simp only [cut, hd, cut_of_notMem hrest]
    rfl

/-- A text is cut at the first occurrence. -/
theorem cut_append (bs : List Char) : ∀ {as : List Char}, c ∉ as → cut c (as ++ c :: bs) = (as, some bs)
  | [], _ => by simp [cut]
  | d :: rest, h => by
    obtain ⟨hne, hrest⟩ := List.ne_and_not_mem_of_not_mem_cons h
    have hd : (d == c) = false := beq_eq_false_iff_ne.mpr (Ne.symm hne)
    rw [List.cons_append, cut, hd, cut_append bs hrest]
    rfl

/-- A part behind its sign is cut off. -/
theorem cut_behindSign (part : Option (List Char)) (h : c ∉ as) : cut c (as ++ behindSign c part) = (as, part) := by
  cases part with
  | none => rw [behindSign, List.append_nil, cut_of_notMem h]
  | some bs => exact cut_append bs h

theorem behindLast_of_notMem (h : c ∉ as) : behindLast c as = as := by
  rw [behindLast, if_neg]
  simpa using h

/-- The text behind the last occurrence. -/
theorem behindLast_append (as : List Char) (h : c ∉ bs) : behindLast c (as ++ c :: bs) = bs := by
  have hmem : (as ++ c :: bs).contains c = true := by simp
  have hbs : ∀ d ∈ bs.reverse, (d != c) = true := by
    intro d hd
    rw [bne_iff_ne]
    rintro rfl
    exact h (List.mem_reverse.mp hd)
  rw [behindLast, if_pos hmem, List.reverse_append, List.reverse_cons, List.append_assoc,
    List.takeWhile_append_of_pos hbs, List.singleton_append, List.takeWhile_cons_of_neg (by simp), List.append_nil,
    List.reverse_reverse]

/-! ## Leaving out a front and an end -/

variable {front last whole rest rest' : List Char}

/-- The text without one occurrence of `front` at its front, if it begins so. -/
def WithoutFront (front whole rest : List Char) : Prop := whole = front ++ rest ∨ rest = whole ∧ ¬front <+: whole

/-- The text without one occurrence of `last` at its end, if it ends so. -/
def WithoutEnd (last whole rest : List Char) : Prop := whole = rest ++ last ∨ rest = whole ∧ ¬last <:+ whole

theorem WithoutFront.unique (h : WithoutFront front whole rest) (h' : WithoutFront front whole rest') :
    rest = rest' := by
  rcases h with h | ⟨h, hnot⟩ <;> rcases h' with h' | ⟨h', hnot'⟩
  · exact List.append_cancel_left (h.symm.trans h')
  · exact absurd ⟨rest, h.symm⟩ hnot'
  · exact absurd ⟨rest', h'.symm⟩ hnot
  · exact h.trans h'.symm

theorem WithoutEnd.unique (h : WithoutEnd last whole rest) (h' : WithoutEnd last whole rest') : rest = rest' := by
  rcases h with h | ⟨h, hnot⟩ <;> rcases h' with h' | ⟨h', hnot'⟩
  · exact List.append_cancel_right (h.symm.trans h')
  · exact absurd ⟨rest, h.symm⟩ hnot'
  · exact absurd ⟨rest', h'.symm⟩ hnot
  · exact h.trans h'.symm

/-- The front of a host that is left out. -/
def www : List Char := "www.".toList

theorem withoutFront_dropWww (cs : List Char) : WithoutFront www cs (dropWww cs) := by
  unfold dropWww
  split
  · exact .inl rfl
  · rename_i hnot
    refine .inr ⟨rfl, ?_⟩
    rintro ⟨behind, hbehind⟩
    exact hnot behind hbehind.symm

theorem withoutEnd_dropEndSlash (cs : List Char) : WithoutEnd ['/'] cs (dropEndSlash cs) := by
  unfold dropEndSlash
  split
  · rename_i hlast
    exact .inl (List.dropLast_append_getLast? '/' (by simpa using hlast)).symm
  · rename_i hlast
    refine .inr ⟨rfl, ?_⟩
    rintro ⟨before, rfl⟩
    simp at hlast

/-! ## Characters of the parts -/

theorem isVisible_iff {d : Char} : isVisible d = true ↔ 0x21 ≤ d.toNat ∧ d.toNat ≤ 0x7e := by
  simp [isVisible]

/-- Letters and digits are visible. -/
theorem isVisible_of_isAlphanum {d : Char} (h : d.isAlphanum = true) : isVisible d = true := by
  have hcodes : ((decide (d.val ≥ 'A'.val ∧ d.val ≤ 'Z'.val) || d.val ≥ 'a'.val && d.val ≤ 'z'.val) ||
      d.val ≥ '0'.val && d.val ≤ '9'.val) = true := h
  have hcode : d.toNat = d.val.toNat := rfl
  have hbounds : 48 ≤ d.val.toNat ∧ d.val.toNat ≤ 122 := by
    simp [UInt32.le_iff_toNat_le] at hcodes
    omega
  rw [isVisible_iff]
  omega

theorem isVisible_of_isSchemeChar {d : Char} (h : isSchemeChar d = true) : isVisible d = true := by
  simp only [isSchemeChar, Bool.or_eq_true, beq_iff_eq] at h
  rcases h with ((h | rfl) | rfl) | rfl
  · exact isVisible_of_isAlphanum h
  all_goals decide

theorem isVisible_of_isHostChar {d : Char} (h : isHostChar d = true) : isVisible d = true := by
  simp only [isHostChar, Bool.or_eq_true, beq_iff_eq] at h
  rcases h with (h | rfl) | rfl
  · exact isVisible_of_isAlphanum h
  all_goals decide

/-- What all characters of a text have in common keeps other characters out of it. -/
theorem notMem_of_all {p : Char → Bool} {d : Char} (h : as.all p = true) (hd : p d = false) : d ∉ as :=
  fun hmem => absurd (List.all_eq_true.mp h d hmem) (by simp [hd])

/-- A character of a user, a host or a port, or the sign between two of them. -/
def isAuthorityChar (d : Char) : Bool := isVisible d && !(['/', '?', '#', '[', ']'].contains d)

theorem isAuthorityChar_of_isUserChar {d : Char} (h : isUserChar d = true) : isAuthorityChar d = true := by
  simp only [isUserChar, isAuthorityChar, Bool.and_eq_true, Bool.not_eq_true', List.contains_eq_mem, List.mem_cons,
    List.not_mem_nil, or_false, decide_eq_false_iff_not, not_or] at h ⊢
  obtain ⟨hvisible, hslash, hquery, hfragment, _, hopening, hclosing⟩ := h
  exact ⟨hvisible, hslash, hquery, hfragment, hopening, hclosing⟩

theorem isAuthorityChar_of_isHostChar {d : Char} (h : isHostChar d = true) : isAuthorityChar d = true := by
  rw [isAuthorityChar, isVisible_of_isHostChar h, Bool.true_and, Bool.not_eq_true']
  by_contra hd
  simp only [Bool.not_eq_false, List.contains_eq_mem, List.mem_cons, List.not_mem_nil, or_false,
    decide_eq_true_eq] at hd
  rcases hd with rfl | rfl | rfl | rfl | rfl <;> exact absurd h (by decide)

theorem isVisible_of_isAuthorityChar {d : Char} (h : isAuthorityChar d = true) : isVisible d = true := by
  simp only [isAuthorityChar, Bool.and_eq_true] at h
  exact h.1

theorem endsAuthority_of_isAuthorityChar {d : Char} (h : isAuthorityChar d = true) : endsAuthority d = false := by
  by_contra hends
  simp only [endsAuthority, Bool.not_eq_false, Bool.or_eq_true, beq_iff_eq] at hends
  rcases hends with (rfl | rfl) | rfl <;> exact absurd h (by decide)

/-- A digit may stand in a host. -/
theorem isHostChar_of_isDigit {d : Char} (h : d.isDigit = true) : isHostChar d = true := by
  simp [isHostChar, Char.isAlphanum, h]

theorem hidesDelimiter_of_isVisible {d : Char} (h : isVisible d = true) : hidesDelimiter d = false := by
  obtain ⟨_, hd⟩ := isVisible_iff.mp h
  simp only [hidesDelimiter, List.contains_eq_mem, List.mem_cons, List.not_mem_nil, or_false, decide_eq_false_iff_not]
  omega

/-- A text of visible characters has nothing that is cleaned away. -/
theorem cleaned_of_isVisible (h : ∀ d ∈ as, isVisible d = true) : cleaned as = as := by
  have hfront : (as.dropWhile fun d => d.toNat ≤ 32) = as := by
    cases as with
    | nil => rfl
    | cons d rest =>
      obtain ⟨hd, _⟩ := isVisible_iff.mp (h d List.mem_cons_self)
      exact List.dropWhile_cons_of_neg (by simp; omega)
  rw [cleaned, hfront, List.filter_eq_self]
  intro d hd
  simp only [Bool.and_eq_true, bne_iff_ne]
  have hvisible := h d hd
  refine ⟨⟨?_, ?_⟩, ?_⟩ <;> rintro rfl <;> exact absurd hvisible (by decide)

/-- Without brackets there are none that do not hold an address. -/
theorem bracketsValid_of_notMem (hopening : '[' ∉ as) (hclosing : ']' ∉ as) : bracketsValid as = true := by
  simp [bracketsValid, hopening, hclosing]

/-- An authority reaches up to the first character that ends it. -/
theorem splitAuthority_append (has : ∀ d ∈ as, endsAuthority d = false) (hbs : ∀ d ∈ bs.head?, endsAuthority d = true) :
    splitAuthority ('/' :: '/' :: (as ++ bs)) = (as, bs) := by
  have hkept : ∀ d ∈ as, (!endsAuthority d) = true := fun d hd => by simp [has d hd]
  have htake : bs.takeWhile (fun d => !endsAuthority d) = [] := by
    cases bs with
    | nil => rfl
    | cons d rest => exact List.takeWhile_cons_of_neg (by simp [hbs d rfl])
  have hdrop : bs.dropWhile (fun d => !endsAuthority d) = bs := by
    cases bs with
    | nil => rfl
    | cons d rest => exact List.dropWhile_cons_of_neg (by simp [hbs d rfl])
  simp only [splitAuthority, List.takeWhile_append_of_pos hkept, List.dropWhile_append_of_pos hkept, htake, hdrop,
    List.append_nil]

/-! ## The parts of a written address -/

namespace Written

variable (w : Written)

theorem mem_placeChars {w : Written} {d : Char} (h : d ∈ w.placeChars) : isHostChar d = true ∨ d = ':' := by
  rcases List.mem_append.mp h with h | h
  · exact .inl (List.all_eq_true.mp w.host_chars d h)
  · cases hport : w.port with
    | none => simp [behindSign, hport] at h
    | some digits =>
      rw [hport] at h
      rcases List.mem_cons.mp h with rfl | h
      · exact .inr rfl
      · exact .inl (isHostChar_of_isDigit (forall_of_all w.port_chars digits hport d h))

theorem isAuthorityChar_of_mem_placeChars {d : Char} (h : d ∈ w.placeChars) : isAuthorityChar d = true := by
  rcases mem_placeChars h with h | rfl
  · exact isAuthorityChar_of_isHostChar h
  · decide

/-- The characters of an authority are visible and none of them ends it or is a bracket. -/
theorem isAuthorityChar_of_mem {d : Char} (h : d ∈ w.authorityChars) : isAuthorityChar d = true := by
  cases huser : w.user with
  | none =>
    simp only [authorityChars, huser] at h
    exact w.isAuthorityChar_of_mem_placeChars h
  | some u =>
    simp only [authorityChars, huser] at h
    rcases List.mem_append.mp h with h | h
    · exact isAuthorityChar_of_isUserChar (forall_of_all w.user_chars u huser d h)
    · rcases List.mem_cons.mp h with rfl | h
      · decide
      · exact w.isAuthorityChar_of_mem_placeChars h

/-- What follows the authority begins with a character that ends it. -/
theorem endsAuthority_head_restChars {d : Char} (h : d ∈ w.restChars.head?) : endsAuthority d = true := by
  rw [restChars, List.append_assoc] at h
  cases hpath : w.path with
  | cons e rest =>
    have hd : d = e := by simpa [hpath] using h.symm
    have he : e = '/' := by simpa [hpath] using w.path_begins
    rw [hd, he]
    decide
  | nil =>
    rw [hpath, List.nil_append] at h
    cases hquery : w.query with
    | some q =>
      have hd : d = '?' := by simpa [hquery, behindSign] using h.symm
      rw [hd]
      decide
    | none =>
      rw [hquery] at h
      cases hfragment : w.fragment with
      | some f =>
        have hd : d = '#' := by simpa [hfragment, behindSign] using h.symm
        rw [hd]
        decide
      | none => simp [hfragment, behindSign] at h

theorem isVisible_of_mem_behindSign {sign d : Char} {part : Option (List Char)} (hsign : isVisible sign = true)
    (hpart : ∀ q ∈ part, ∀ e ∈ q, isVisible e = true) (h : d ∈ behindSign sign part) : isVisible d = true := by
  cases part with
  | none => simp [behindSign] at h
  | some q =>
    rcases List.mem_cons.mp h with rfl | h
    · exact hsign
    · exact hpart q rfl d h

/-- All characters of a written address are visible. -/
theorem isVisible_of_mem_chars {d : Char} (h : d ∈ w.chars) : isVisible d = true := by
  have hpath : ∀ e ∈ w.path, isVisible e = true := fun e he => by
    have := List.all_eq_true.mp w.path_chars e he
    simp only [isPathChar, Bool.and_eq_true] at this
    exact this.1.1
  have hquery : ∀ q ∈ w.query, ∀ e ∈ q, isVisible e = true := fun q hq e he => by
    have := forall_of_all w.query_chars q hq e he
    simp only [isQueryChar, Bool.and_eq_true] at this
    exact this.1
  simp only [chars, restChars, List.mem_append, List.mem_cons] at h
  rcases h with h | rfl | rfl | rfl | h | (h | h) | h
  · exact isVisible_of_isSchemeChar (List.all_eq_true.mp w.scheme_chars d h)
  · decide
  · decide
  · decide
  · exact isVisible_of_isAuthorityChar (w.isAuthorityChar_of_mem h)
  · exact hpath d h
  · exact isVisible_of_mem_behindSign (by decide) hquery h
  · exact isVisible_of_mem_behindSign (by decide) (forall_of_all w.fragment_chars) h

/-- A scheme begins with a letter. -/
theorem exists_scheme_eq : ∃ d rest, w.scheme = d :: rest ∧ d.isAlpha = true := by
  have hbegins := w.scheme_begins
  cases hscheme : w.scheme with
  | nil => simp [hscheme] at hbegins
  | cons d rest => exact ⟨d, rest, rfl, by simpa [hscheme] using hbegins⟩

/-- The scheme reaches up to the first colon. -/
theorem splitScheme_chars :
    splitScheme w.chars = (w.scheme.map Char.toLower, '/' :: '/' :: (w.authorityChars ++ w.restChars)) := by
  have hcolon : ':' ∉ w.scheme := notMem_of_all w.scheme_chars (by decide)
  have hcut := cut_append ('/' :: '/' :: (w.authorityChars ++ w.restChars)) hcolon
  have hall := w.scheme_chars
  obtain ⟨d, rest, hscheme, hd⟩ := w.exists_scheme_eq
  rw [hscheme] at hcut hall
  rw [splitScheme, chars, hscheme, hcut]
  exact if_pos (by rw [hd, hall]; rfl)

/-- What follows the authority is cut into path, query and fragment. -/
theorem cut_restChars : cut '#' w.restChars = (w.path ++ behindSign '?' w.query, w.fragment) := by
  refine cut_behindSign _ ?_
  rw [List.mem_append, not_or]
  refine ⟨notMem_of_all w.path_chars (by decide), ?_⟩
  cases hquery : w.query with
  | none => exact List.not_mem_nil
  | some q =>
    have hchars : q.all isQueryChar = true := List.all_eq_true.mpr (forall_of_all w.query_chars q hquery)
    exact List.not_mem_cons_of_ne_of_not_mem (by decide) (notMem_of_all hchars (by decide))

/-- **A written address is split into the parts it is written from.** -/
theorem splitChars?_chars : splitChars? w.chars =
    some ⟨w.scheme.map Char.toLower, w.authorityChars, w.path, w.query, w.fragment⟩ := by
  have hauthority : w.authorityChars.all isAuthorityChar = true :=
    List.all_eq_true.mpr fun d => w.isAuthorityChar_of_mem
  have hbrackets : bracketsValid w.authorityChars = true :=
    bracketsValid_of_notMem (notMem_of_all hauthority (by decide)) (notMem_of_all hauthority (by decide))
  have hplain : w.authorityChars.any hidesDelimiter = false := List.any_eq_false.mpr fun d hd => by
    simp [hidesDelimiter_of_isVisible (isVisible_of_isAuthorityChar (w.isAuthorityChar_of_mem hd))]
  have hparts := splitAuthority_append
    (fun d hd => endsAuthority_of_isAuthorityChar (w.isAuthorityChar_of_mem hd))
    fun d => w.endsAuthority_head_restChars
  have hquery : '?' ∉ w.path := notMem_of_all w.path_chars (by decide)
  rw [splitChars?, cleaned_of_isVisible fun d => w.isVisible_of_mem_chars]
  simp only [w.splitScheme_chars, hparts, hbrackets, hplain, w.cut_restChars, cut_behindSign w.query hquery]
  rfl

/-- The host stands between the last `@` and the colon. -/
theorem rawHost_authority : rawHost w.authorityChars = w.host := by
  have hplace : ∀ {d : Char}, isHostChar d = false → d ≠ ':' → d ∉ w.placeChars := fun hd hne hmem =>
    (mem_placeChars hmem).elim (by simp [hd]) hne
  have hbehind : behindLast '@' w.authorityChars = w.placeChars := by
    have hsign : '@' ∉ w.placeChars := hplace (by decide) (by decide)
    cases huser : w.user with
    | none => simpa [authorityChars, huser] using behindLast_of_notMem hsign
    | some u => simpa [authorityChars, huser] using behindLast_append u hsign
  have hcolon : ':' ∉ w.host := notMem_of_all w.host_chars (by decide)
  rw [rawHost, hbehind, cut_of_notMem (hplace (by decide) (by decide))]
  exact congrArg Prod.fst (cut_behindSign w.port hcolon)

/-- The host in lower case. -/
def lowerHost : List Char := w.host.map Char.toLower

theorem host?_eq {u : Url} (h : u.authority = w.authorityChars) : u.host? = some w.lowerHost := by
  have hempty : w.host.isEmpty = false := by simpa using w.host_ne_nil
  have hzone : '%' ∉ w.host := notMem_of_all w.host_chars (by decide)
  have hascii : ∀ d ∈ w.host, d.toNat < 128 := fun d hd => by
    obtain ⟨_, hle⟩ := isVisible_iff.mp (isVisible_of_isHostChar (List.all_eq_true.mp w.host_chars d hd))
    omega
  simp only [host?, h, w.rawHost_authority, hempty, cut_of_notMem hzone, Text.lowerChars_ascii hascii]
  rfl

/-- **The canonical form of a written address is its host in lower case without a leading `www.`, and its path without
one trailing slash.** -/
theorem canonical?_text {host path : List Char} (hhost : WithoutFront www w.lowerHost host)
    (hpath : WithoutEnd ['/'] w.path path) : canonical? w.text = some (String.ofList (host ++ path)) := by
  have hscheme : (w.scheme.map Char.toLower).isEmpty = false := by
    obtain ⟨d, rest, hscheme, _⟩ := w.exists_scheme_eq
    simp [hscheme]
  rw [canonical?, split?, text, String.toList_ofList, w.splitChars?_chars, Option.bind_some]
  simp only [hscheme]
  rw [w.host?_eq rfl, hhost.unique (withoutFront_dropWww _), hpath.unique (withoutEnd_dropEndSlash _)]
  rfl

end Written

end Url

end Shelfmark
