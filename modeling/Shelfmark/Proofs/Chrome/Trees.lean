import Mathlib.Data.List.Basic
import Shelfmark.Proofs.Chrome.Times
import Shelfmark.Proofs.Fallible
import Shelfmark.Proofs.Json.Bounds

/-!
# Bookmarks in trees

A node of a tree stands at a place: its positions among the children from the root down.  It is seen if all nodes above
it are folders (`Sees`).  Reading a tree of the right shape takes up the bookmarks that are seen, each once and in the
order of their places (`reads_tree`), as is put together from the parts of a list (`reads_parts`).  A folder is nested
in the tree at least as deep as it takes up room, so there is room for all folders wherever there is room for the tree.

The entry of a node is its bookmark (`isBookmarkOf_entryAt`), with the path of the folders above it
(`foldl_pathWithin`); there is none exactly if one of its times is excessive (`exists_entryAt`,
`entryAt_of_excessive`).  Whatever the shape of a file, an entry that is read has its name and its folder as title and
path where these are texts (`isFaithful_entriesOf`).
-/

namespace Shelfmark.Chrome

/-! ## Nodes that are seen -/

/-- A node in a tree: its place, the names of the folders above it from the root down, and its fields. -/
structure Sighting where
  place : List Nat
  folders : List String
  fields : List (String × Json)

namespace Sighting

/-- A field, null if it is missing. -/
def field (x : Sighting) (key : String) : Json := (Json.lookup key x.fields).getD .null

/-- The node as one of the tree at a position in a list of trees. -/
def behind (x : Sighting) (i : Nat) : Sighting := { x with place := i :: x.place }

/-- The node as one within a folder. -/
def inside (x : Sighting) (name : String) : Sighting := { x with folders := name :: x.folders }

/-- A time of the node is excessive. -/
def Excessive (x : Sighting) : Prop :=
  Chrome.Excessive (x.field "date_added") ∨ Chrome.Excessive (x.field "date_last_used")

end Sighting

/-- The name of a folder; a missing one is empty. -/
def nameOf (node : List (String × Json)) : String :=
  match Json.lookup "name" node with
  | some (.str s) => s
  | _ => ""

/-- The children of a folder; missing ones are none. -/
def childrenOf (node : List (String × Json)) : List Json :=
  match Json.lookup "children" node with
  | some (.arr items) => items
  | _ => []

/-- A node is seen from a tree: it is the root, or it is seen from a child of the root, which is a folder. -/
inductive Sees : Json → Sighting → Prop
  | root (node : List (String × Json)) : Sees (.obj node) ⟨[], [], node⟩
  | child {node : List (String × Json)} {i : Nat} {child : Json} {x : Sighting} (hkind : kindOf node = .folder)
      (hchild : (childrenOf node)[i]? = some child) (h : Sees child x) :
      Sees (.obj node) ((x.inside (nameOf node)).behind i)

/-- A field is missing or a text. -/
def TextOrMissing (key : String) (node : List (String × Json)) : Prop :=
  ∀ v, Json.lookup key node = some v → ∃ s, v = .str s

/-- The right shape of a tree: the address of a bookmark and the name of a folder are texts, and the children of a
folder are trees of the right shape.  Nodes of other kinds may have any fields. -/
inductive WellShaped : Json → Prop
  | bookmark {node : List (String × Json)} (hkind : kindOf node = .bookmark) (hurl : TextOrMissing "url" node) :
      WellShaped (.obj node)
  | folder {node : List (String × Json)} (hkind : kindOf node = .folder) (hname : TextOrMissing "name" node)
      (hlist : ∀ v, Json.lookup "children" node = some v → ∃ items, v = .arr items)
      (h : ∀ child ∈ childrenOf node, WellShaped child) : WellShaped (.obj node)
  | other {node : List (String × Json)} (hkind : kindOf node = .other) : WellShaped (.obj node)

/-! ## Lists of bookmarks -/

/-- The list holds the bookmarks among the nodes that are seen, each once, in the order of their places. -/
structure Lists (seen : Sighting → Prop) (xs : List Sighting) : Prop where
  ordered : xs.Pairwise fun x y => x.place < y.place
  mem_iff : ∀ x, x ∈ xs ↔ seen x ∧ kindOf x.fields = .bookmark

/-- The path of a folder within another, by its name. -/
def pathWithin (folder name : String) : String := if folder.isEmpty then name else folder ++ "/" ++ name

variable {now : Timestamp} {room : Nat} {folder : String} {node : List (String × Json)} {tree : Json} {x : Sighting}
  {seen : Sighting → Prop} {r : Except Fault (List Entry)}

/-- The entry of a node, within a folder and the folders above the node, which take up room. -/
def entryAt (now : Timestamp) (room : Nat) (folder : String) (x : Sighting) : Except Fault Entry :=
  entryOf (room - x.folders.length) now (.str (x.folders.foldl pathWithin folder)) x.fields

/-- What is read are the entries of the bookmarks among the nodes that are seen. -/
def Reads (now : Timestamp) (room : Nat) (folder : String) (seen : Sighting → Prop) (r : Except Fault (List Entry)) :
    Prop :=
  ∃ xs, Lists seen xs ∧ r = xs.mapM (entryAt now room folder)

/-- **What is read part by part are the bookmarks that are seen in the parts**, with the number of the part in front of
their places. -/
theorem reads_parts {β : Type} {seen : β → Sighting → Prop} {read : β → Except Fault (List Entry)} :
    ∀ {parts : List β} (n : Nat), (∀ p ∈ parts, Reads now room folder (seen p) (read p)) →
      Reads now room folder (fun x => ∃ i p y, parts[i]? = some p ∧ seen p y ∧ x = y.behind (n + i))
        ((parts.mapM read).map List.flatten)
  | [], n, _ => ⟨[], ⟨.nil, fun x => by simp⟩, rfl⟩
  | p :: rest, n, h => by
    obtain ⟨xs, hxs, hread⟩ := h p List.mem_cons_self
    obtain ⟨ys, hys, hrest⟩ := reads_parts (n + 1) fun q hq => h q (List.mem_cons_of_mem p hq)
    refine ⟨xs.map (·.behind n) ++ ys, ⟨?_, fun x => ?_⟩, ?_⟩
    · refine List.pairwise_append.mpr ⟨List.pairwise_map.mpr (hxs.ordered.imp fun hlt => ?_), hys.ordered, ?_⟩
      · exact List.cons_lt_cons_self.mpr hlt
      · -- a later part has a greater number
        intro x hx y hy
        obtain ⟨x', _, rfl⟩ := List.mem_map.mp hx
        obtain ⟨⟨i, q, y', _, _, rfl⟩, _⟩ := (hys.mem_iff y).mp hy
        exact List.cons_lt_cons_iff.mpr (.inl (by omega))
    · rw [List.mem_append, List.mem_map, hys.mem_iff]
      constructor
      · rintro (⟨y, hy, rfl⟩ | ⟨⟨i, q, y, hq, hy, rfl⟩, hkind⟩)
        · obtain ⟨hseen, hkind⟩ := (hxs.mem_iff y).mp hy
          exact ⟨⟨0, p, y, rfl, hseen, rfl⟩, hkind⟩
        · exact ⟨⟨i + 1, q, y, hq, hy, by rw [Nat.add_assoc, Nat.add_comm 1 i]⟩, hkind⟩
      · rintro ⟨⟨i, q, y, hq, hy, rfl⟩, hkind⟩
        cases i with
        | zero =>
          cases hq
          exact .inl ⟨y, (hxs.mem_iff y).mpr ⟨hy, hkind⟩, rfl⟩
        | succ i => exact .inr ⟨⟨i, q, y, hq, hy, by rw [Nat.add_assoc, Nat.add_comm 1 i]⟩, hkind⟩
    · have hbehind : (xs.map (·.behind n)).mapM (entryAt now room folder) = read p := by
        rw [List.mapM_map, hread]
        rfl
      rw [List.mapM_append, hbehind, ← hrest, List.mapM_cons]
      cases read p with
      | error e => rfl
      | ok es =>
        cases rest.mapM read with
        | error e => rfl
        | ok ess => rfl

/-! ## Trees -/

/-- The children of a folder are read one after the other. -/
theorem itemsWithin_eq {path : Json} : ∀ items : List Json,
    itemsWithin now room path items = (items.mapM (entriesWithin now room path)).map List.flatten
  | [] => rfl
  | v :: rest => by
    rw [itemsWithin, itemsWithin_eq rest, List.mapM_cons]
    cases entriesWithin now room path v with
    | error e => rfl
    | ok es =>
      cases rest.mapM (entriesWithin now room path) with
      | error e => rfl
      | ok ess => rfl

/-- What is read below a folder is its list of children. -/
theorem childrenWithin_eq {path : Json} : ∀ node : List (String × Json), childrenWithin now room path node =
    match Json.lookup "children" node with
    | some v => listWithin now room path v
    | none => .ok []
  | [] => rfl
  | (key, v) :: rest => by
    unfold childrenWithin Json.lookup
    split
    · rfl
    · exact childrenWithin_eq rest

theorem childrenWithin_of_list {path : Json}
    (h : ∀ v, Json.lookup "children" node = some v → ∃ items, v = .arr items) :
    childrenWithin now room path node = itemsWithin now room path (childrenOf node) := by
  rw [childrenWithin_eq, childrenOf]
  cases hv : Json.lookup "children" node with
  | none => rfl
  | some v =>
    obtain ⟨items, rfl⟩ := h v hv
    rfl

/-- The path of a folder whose name is a text. -/
theorem folderWithin_eq (h : TextOrMissing "name" node) :
    folderWithin room (.str folder) node = .ok (.str (pathWithin folder (nameOf node))) := by
  have hname : (Json.lookup "name" node).getD (.str "") = .str (nameOf node) := by
    rw [nameOf]
    cases hv : Json.lookup "name" node with
    | none => rfl
    | some v =>
      obtain ⟨s, rfl⟩ := h v hv
      rfl
  unfold folderWithin pathWithin
  rw [hname]
  by_cases hempty : folder = ""
  · subst hempty
    rfl
  · have htrue : (Json.str folder).isTrue = true := by simpa [Json.isTrue] using hempty
    rw [if_pos htrue, if_neg (by simpa using hempty), Json.display_str, Json.display_str]
    rfl

/-- A child of a folder is nested less deep. -/
theorem within_child {child : Json} (h : Json.Within room (.obj node)) (hchild : child ∈ childrenOf node) :
    Json.Within (room - 1) child := by
  rw [childrenOf] at hchild
  split at hchild
  · rename_i items hitems
    cases h with
    | obj h =>
      cases h _ (Json.mem_of_lookup hitems) with
      | arr h => exact (h child hchild).mono (Nat.le_succ _)
  · exact absurd hchild List.not_mem_nil

/-- The nodes that are seen from a folder are the folder and those that are seen from its children. -/
theorem sees_folder (hkind : kindOf node = .folder) : Sees (.obj node) x ↔
    x = ⟨[], [], node⟩ ∨ ∃ i child y, (childrenOf node)[i]? = some child ∧ Sees child y ∧
      x = (y.inside (nameOf node)).behind i := by
  constructor
  · intro h
    cases h with
    | root => exact .inl rfl
    | child _ hchild h => exact .inr ⟨_, _, _, hchild, h, rfl⟩
  · rintro (rfl | ⟨i, child, y, hchild, hy, rfl⟩)
    · exact .root node
    · exact .child hkind hchild hy

/-- From a node that is no folder only the node itself is seen. -/
theorem sees_leaf (hkind : kindOf node ≠ .folder) : Sees (.obj node) x ↔ x = ⟨[], [], node⟩ := by
  constructor
  · intro h
    cases h with
    | root => rfl
    | child hfolder => exact absurd hfolder hkind
  · rintro rfl
    exact .root node

/-- From a bookmark only its own entry is read. -/
theorem reads_bookmark (now : Timestamp) (hkind : kindOf node = .bookmark) (room : Nat) (folder : String) :
    Reads now room folder (Sees (.obj node)) (entriesWithin now room (.str folder) (.obj node)) := by
  refine ⟨[⟨[], [], node⟩], ⟨List.pairwise_singleton _ _, fun x => ?_⟩, ?_⟩
  · rw [List.mem_singleton, sees_leaf (by rw [hkind]; decide)]
    exact ⟨fun he => ⟨he, he ▸ hkind⟩, And.left⟩
  · unfold entriesWithin
    rw [hkind, List.mapM_cons]
    show (entryOf room now (.str folder) node).map _ = (entryOf room now (.str folder) node) >>= _
    cases entryOf room now (.str folder) node <;> rfl

/-- From a node that is neither a bookmark nor a folder nothing is read. -/
theorem reads_other (now : Timestamp) (hkind : kindOf node = .other) (room : Nat) (folder : String) :
    Reads now room folder (Sees (.obj node)) (entriesWithin now room (.str folder) (.obj node)) := by
  refine ⟨[], ⟨.nil, fun x => ?_⟩, by unfold entriesWithin; rw [hkind]; rfl⟩
  rw [sees_leaf (by rw [hkind]; decide)]
  refine ⟨fun hx => absurd hx List.not_mem_nil, ?_⟩
  rintro ⟨rfl, hbookmark⟩
  exact absurd (hkind.symm.trans hbookmark) (by decide)

/-- What is seen inside of a folder is read with one level of room less and within its path. -/
theorem entryAt_inside (now : Timestamp) (room : Nat) (folder name : String) (x : Sighting) :
    entryAt now (room + 1) folder (x.inside name) = entryAt now room (pathWithin folder name) x := by
  rw [entryAt, entryAt]
  simp [Sighting.inside, Nat.add_sub_add_right]

/-- From a folder what is seen from its children is read, within the path of the folder. -/
theorem reads_folder (hkind : kindOf node = .folder) (hname : TextOrMissing "name" node)
    (hlist : ∀ v, Json.lookup "children" node = some v → ∃ items, v = .arr items)
    (hchildren : ∀ child ∈ childrenOf node, Reads now room (pathWithin folder (nameOf node)) (Sees child)
      (entriesWithin now room (.str (pathWithin folder (nameOf node))) child)) :
    Reads now (room + 1) folder (Sees (.obj node)) (entriesWithin now (room + 1) (.str folder) (.obj node)) := by
  obtain ⟨xs, hxs, hread⟩ := reads_parts 0 hchildren
  refine ⟨xs.map (·.inside (nameOf node)), ⟨List.pairwise_map.mpr hxs.ordered, fun x => ?_⟩, ?_⟩
  · rw [List.mem_map, sees_folder hkind]
    constructor
    · rintro ⟨y, hy, rfl⟩
      obtain ⟨⟨i, child, z, hchild, hz, rfl⟩, hbookmark⟩ := (hxs.mem_iff y).mp hy
      exact ⟨.inr ⟨i, child, z, hchild, hz, by rw [Nat.zero_add]; rfl⟩, hbookmark⟩
    · rintro ⟨rfl | ⟨i, child, z, hchild, hz, rfl⟩, hbookmark⟩
      · exact absurd (hkind.symm.trans hbookmark) (by decide)
      · exact ⟨z.behind i, (hxs.mem_iff _).mpr ⟨⟨i, child, z, hchild, hz, by rw [Nat.zero_add]⟩, hbookmark⟩, rfl⟩
  · have hinside : (xs.map (·.inside (nameOf node))).mapM (entryAt now (room + 1) folder) =
        xs.mapM (entryAt now room (pathWithin folder (nameOf node))) := by
      rw [List.mapM_map]
      exact congrArg (xs.mapM ·) (funext fun x => entryAt_inside now room folder (nameOf node) x)
    rw [hinside, ← hread, ← itemsWithin_eq, entriesWithin, hkind]
    show (folderWithin (room + 1) (.str folder) node).bind _ = _
    rw [folderWithin_eq hname, ← childrenWithin_of_list hlist]
    rfl

/-- **Reading a tree takes up the bookmarks that are seen from it.** -/
theorem reads_tree (now : Timestamp) (h : WellShaped tree) : ∀ {room : Nat}, Json.Within room tree →
    ∀ folder, Reads now room folder (Sees tree) (entriesWithin now room (.str folder) tree) := by
  induction h with
  | bookmark hkind _ => exact fun _ => reads_bookmark now hkind _
  | other hkind => exact fun _ => reads_other now hkind _
  | @folder node hkind hname hlist _ ih =>
    intro room hroom folder
    obtain ⟨deeper, rfl⟩ : ∃ deeper, room = deeper + 1 := by
      cases hroom with
      | obj _ => exact ⟨_, rfl⟩
    exact reads_folder hkind hname hlist fun child hchild => ih child hchild (within_child hroom hchild) _

/-! ## Bookmarks -/

/-- The bookmark of a node.  Its folder is the path of names above the node if none of these is empty. -/
structure IsBookmarkOf (now : Timestamp) (x : Sighting) (b : Bookmark) : Prop where
  url : (Json.lookup "url" x.fields).getD (.str "") = .str b.url
  id : b.id = if (x.field "id").isTrue then (x.field "id").plainText else b.url
  title : b.title = if (x.field "name").isTrue then (x.field "name").plainText else "Untitled"
  domain : b.domain = Url.site b.url
  folderPath : (∀ name ∈ x.folders, name ≠ "") → b.folderPath = "/".intercalate x.folders
  dateAdded : ∃ t, timeOf (x.field "date_added") = .ok t ∧ b.dateAdded = t.getD now
  lastAccessed : timeOf (x.field "date_last_used") = .ok b.lastAccessed

/-- The path of folders in a folder that has a path. -/
theorem foldl_pathWithin_of_ne : ∀ {names : List String} {folder : String}, folder ≠ "" →
    names.foldl pathWithin folder = "/".intercalate (folder :: names)
  | [], _, _ => String.intercalate_singleton.symm
  | name :: rest, folder, h => by
    have hpath : pathWithin folder name = folder ++ "/" ++ name := if_neg (by simpa using h)
    have hne : folder ++ "/" ++ name ≠ "" := by simp [h]
    rw [List.foldl_cons, hpath, foldl_pathWithin_of_ne hne]
    cases rest with
    | nil => simp
    | cons next rest => simp [String.intercalate_cons_cons, String.append_assoc]

/-- **The path of folders whose names are not empty** has slashes between the names. -/
theorem foldl_pathWithin {names : List String} (h : ∀ name ∈ names, name ≠ "") :
    names.foldl pathWithin "" = "/".intercalate names := by
  cases names with
  | nil => rfl
  | cons name rest =>
    show rest.foldl pathWithin name = _
    exact foldl_pathWithin_of_ne (h name List.mem_cons_self)

/-- The address of a node, if it is a text or missing. -/
theorem exists_addressOf (hurl : TextOrMissing "url" node) :
    ∃ url, addressValue node = .str url ∧ addressOf node = .ok url := by
  have haddress : ∃ url, addressValue node = .str url := by
    unfold addressValue
    cases hv : Json.lookup "url" node with
    | none => exact ⟨"", rfl⟩
    | some v => exact hurl v hv
  obtain ⟨url, haddress⟩ := haddress
  exact ⟨url, haddress, by rw [addressOf, haddress]⟩

/-- The id of a bookmark has a text. -/
theorem display_id {k : Nat} (hurl : TextOrMissing "url" x.fields) (hroom : Json.Within k (.obj x.fields)) :
    (if (x.field "id").isTrue then x.field "id" else addressValue x.fields).display k =
      .ok (if (x.field "id").isTrue then (x.field "id").plainText else (addressValue x.fields).plainText) := by
  split
  · exact Json.display_of_within (hroom.get "id")
  · obtain ⟨url, haddress, _⟩ := exists_addressOf hurl
    rw [haddress, Json.display_str]
    rfl

/-- The bookmark of an entry is that of the node. -/
theorem isBookmarkOf_entryAt {e : Entry} (hurl : TextOrMissing "url" x.fields)
    (hroom : Json.Within (room - x.folders.length) (.obj x.fields)) (h : entryAt now room "" x = .ok e) :
    IsBookmarkOf now x e.bookmark := by
  obtain ⟨address, haddress, htext⟩ := exists_addressOf hurl
  obtain ⟨id, hid, h⟩ := bind_eq_ok.mp h
  obtain ⟨url, hurl', h⟩ := bind_eq_ok.mp h
  obtain ⟨added, hadded, h⟩ := bind_eq_ok.mp h
  obtain ⟨lastUsed, hused, h⟩ := bind_eq_ok.mp h
  obtain rfl : address = url := by
    rw [htext] at hurl'
    cases hurl'
    rfl
  cases h
  refine ⟨haddress, ?_, ?_, rfl, fun hnames => ?_, ⟨added, hadded, rfl⟩, hused⟩
  · have hid' := (display_id hurl hroom).symm.trans hid
    rw [haddress] at hid'
    exact (Except.ok.inj hid').symm
  · show Json.plainText (if (x.field "name").isTrue then x.field "name" else .str "Untitled") = _
    split <;> rfl
  · show (if (Json.str (x.folders.foldl pathWithin "")).isTrue then _ else "") = _
    rw [← foldl_pathWithin hnames]
    by_cases hempty : x.folders.foldl pathWithin "" = ""
    · rw [hempty]
      rfl
    · exact if_pos (by simpa [Json.isTrue] using hempty)

/-- **A bookmark has an entry unless one of its times is excessive.** -/
theorem exists_entryAt (now : Timestamp) (folder : String) (hurl : TextOrMissing "url" x.fields)
    (hroom : Json.Within (room - x.folders.length) (.obj x.fields)) (h : ¬x.Excessive) :
    ∃ e, entryAt now room folder x = .ok e := by
  obtain ⟨hadded, hused⟩ := not_or.mp h
  obtain ⟨url, _, htext⟩ := exists_addressOf hurl
  obtain ⟨added, hadded⟩ := exists_timeOf_iff.mpr hadded
  obtain ⟨lastUsed, hused⟩ := exists_timeOf_iff.mpr hused
  exact ⟨_, bind_eq_ok.mpr ⟨_, display_id hurl hroom, bind_eq_ok.mpr ⟨url, htext, bind_eq_ok.mpr ⟨added, hadded,
    bind_eq_ok.mpr ⟨lastUsed, hused, rfl⟩⟩⟩⟩⟩

/-- Otherwise the time is out of range. -/
theorem entryAt_of_excessive (now : Timestamp) (folder : String) (hurl : TextOrMissing "url" x.fields)
    (hroom : Json.Within (room - x.folders.length) (.obj x.fields)) (h : x.Excessive) :
    ∃ what, entryAt now room folder x = .error (.outOfRange what) := by
  obtain ⟨url, _, htext⟩ := exists_addressOf hurl
  have hid := display_id hurl hroom
  by_cases hadded : Chrome.Excessive (x.field "date_added")
  · obtain ⟨what, hfails⟩ := timeOf_of_excessive hadded
    exact ⟨what, bind_eq_error.mpr (.inr ⟨_, hid, bind_eq_error.mpr (.inr ⟨url, htext,
      bind_eq_error.mpr (.inl hfails)⟩)⟩)⟩
  · obtain ⟨added, hadded'⟩ := exists_timeOf_iff.mpr hadded
    obtain ⟨what, hfails⟩ := timeOf_of_excessive (h.resolve_left hadded)
    exact ⟨what, bind_eq_error.mpr (.inr ⟨_, hid, bind_eq_error.mpr (.inr ⟨url, htext,
      bind_eq_error.mpr (.inr ⟨added, hadded', bind_eq_error.mpr (.inl hfails)⟩)⟩)⟩)⟩

/-- A bookmark that is seen from a tree of the right shape has a text for its address. -/
theorem Sees.url (h : Sees tree x) (hshape : WellShaped tree) (hkind : kindOf x.fields = .bookmark) :
    TextOrMissing "url" x.fields := by
  induction h with
  | root node =>
    cases hshape with
    | bookmark _ hurl => exact hurl
    | folder hfolder _ _ _ => exact absurd (hfolder.symm.trans hkind) (by decide)
    | other hother => exact absurd (hother.symm.trans hkind) (by decide)
  | child hfolder hchild _ ih =>
    cases hshape with
    | bookmark hbookmark _ => exact absurd (hfolder.symm.trans hbookmark) (by decide)
    | folder _ _ _ hchildren => exact ih (hchildren _ (List.mem_of_getElem? hchild)) hkind
    | other hother => exact absurd (hfolder.symm.trans hother) (by decide)

/-- What is seen from a tree is nested at least as deep as it has folders above it. -/
theorem Sees.within (h : Sees tree x) : ∀ {room : Nat}, Json.Within room tree →
    Json.Within (room - x.folders.length) (.obj x.fields) := by
  induction h with
  | root node => exact fun hroom => hroom
  | @child node i child x _ hchild _ ih =>
    intro room hroom
    have hwithin := ih (within_child hroom (List.mem_of_getElem? hchild))
    rwa [Nat.sub_sub, Nat.add_comm] at hwithin

/-! ## Names and folders -/

/-- Where the name and the folder of an entry are texts, its bookmark has them as title and as path. -/
structure Entry.IsFaithful (e : Entry) : Prop where
  title : ∀ s, e.name = .str s → e.bookmark.title = s
  folderPath : ∀ s, e.folder = .str s → e.bookmark.folderPath = s

theorem isFaithful_entryOf {path : Json} {e : Entry} (h : entryOf room now path node = .ok e) : e.IsFaithful := by
  obtain ⟨id, _, h⟩ := bind_eq_ok.mp h
  obtain ⟨url, _, h⟩ := bind_eq_ok.mp h
  obtain ⟨added, _, h⟩ := bind_eq_ok.mp h
  obtain ⟨lastUsed, _, h⟩ := bind_eq_ok.mp h
  cases h
  refine ⟨fun s hs => ?_, fun s hs => ?_⟩
  · exact congrArg Json.plainText hs
  · obtain rfl : path = .str s := hs
    show (if (Json.str s).isTrue then s else "") = s
    by_cases hempty : s = ""
    · rw [hempty]
      rfl
    · exact if_pos (by simpa [Json.isTrue] using hempty)

mutual
/-- The entries of a tree are faithful, whatever its shape. -/
theorem isFaithful_entriesWithin : ∀ {room : Nat} {path : Json} (v : Json) {es : List Entry},
    entriesWithin now room path v = .ok es → ∀ e ∈ es, e.IsFaithful
  | room, path, .obj node, es, h => by
    unfold entriesWithin at h
    cases hkind : kindOf node with
    | bookmark =>
      simp only [hkind] at h
      obtain ⟨e, he, rfl⟩ := map_eq_ok.mp h
      exact List.forall_mem_singleton.mpr (isFaithful_entryOf he)
    | folder =>
      match room with
      | 0 => simp [hkind] at h
      | deeper + 1 =>
        simp only [hkind] at h
        obtain ⟨inner, _, h⟩ := bind_eq_ok.mp h
        exact isFaithful_childrenWithin node h
    | other =>
      simp only [hkind] at h
      cases h
      exact List.forall_mem_nil _

theorem isFaithful_childrenWithin : ∀ {room : Nat} {path : Json} (node : List (String × Json)) {es : List Entry},
    childrenWithin now room path node = .ok es → ∀ e ∈ es, e.IsFaithful
  | room, path, [], es, h => by
    cases h
    exact List.forall_mem_nil _
  | room, path, (key, v) :: rest, es, h => by
    unfold childrenWithin at h
    split at h
    · exact isFaithful_listWithin v h
    · exact isFaithful_childrenWithin rest h

theorem isFaithful_listWithin : ∀ {room : Nat} {path : Json} (v : Json) {es : List Entry},
    listWithin now room path v = .ok es → ∀ e ∈ es, e.IsFaithful
  | room, path, .arr items, es, h => isFaithful_itemsWithin items h
  | room, path, .obj [], es, h => by
    cases h
    exact List.forall_mem_nil _
  | room, path, .str s, es, h => by
    unfold listWithin at h
    split at h
    · cases h
      exact List.forall_mem_nil _
    · cases h

theorem isFaithful_itemsWithin : ∀ {room : Nat} {path : Json} (items : List Json) {es : List Entry},
    itemsWithin now room path items = .ok es → ∀ e ∈ es, e.IsFaithful
  | room, path, [], es, h => by
    cases h
    exact List.forall_mem_nil _
  | room, path, v :: rest, es, h => by
    obtain ⟨first, hfirst, h⟩ := bind_eq_ok.mp h
    obtain ⟨more, hmore, h⟩ := bind_eq_ok.mp h
    cases h
    intro e he
    rcases List.mem_append.mp he with he | he
    · exact isFaithful_entriesWithin v hfirst e he
    · exact isFaithful_itemsWithin rest hmore e he
end

end Shelfmark.Chrome
