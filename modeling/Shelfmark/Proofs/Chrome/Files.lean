import Shelfmark.Proofs.Chrome.Trees
import Shelfmark.Proofs.Json.Reading
import Shelfmark.Proofs.Json.RoundTrip

/-!
# Bookmarks files

Reading a file takes up the bookmarks that are seen in it, root by root (`reads_file`).  So a file of the right shape is
read as its bookmarks, in the order of the file (`read_in_order`), unless its text is nested too deep or one of their
times is excessive: then it is not read at all, and only then (`read_unless_excessive`).
-/

namespace Shelfmark.Chrome

variable {now : Timestamp} {room wide : Nat} {fs : Files} {path : String} {file : Json} {x : Sighting}
  {xs : List Sighting}

/-! ## Nodes of a file -/

/-- The tree of a root in a file. -/
def treeOf (file : Json) (name : String) : Option Json := (file.get "roots").get? name

/-- The right shape of a file: its roots, if it has any, are named trees, and those that are read have the right
shape. -/
structure WellShapedFile (file : Json) : Prop where
  isObject : ∃ fields, file = .obj fields
  areNamed : ∀ v, file.get? "roots" = some v → ∃ trees, v = .obj trees
  wellShaped : ∀ name ∈ roots, ∀ tree, treeOf file name = some tree → WellShaped tree

/-- A node is seen in a file, from the tree of a root; the number of the root stands in front of its place. -/
def SeesIn (file : Json) (x : Sighting) : Prop :=
  ∃ i name tree y, roots[i]? = some name ∧ treeOf file name = some tree ∧ Sees tree y ∧ x = y.behind i

/-- The entries of a file are those of its roots. -/
theorem entriesOf_eq (now : Timestamp) (room : Nat) (h : WellShapedFile file) : ∃ trees, entriesOf now room file =
    (roots.mapM (entriesOfRoot now room trees)).map List.flatten ∧
      ∀ name, rootTree trees name = .ok (treeOf file name) := by
  obtain ⟨fields, rfl⟩ := h.isObject
  have hentries : ∀ trees, (Json.lookup "roots" fields).getD (.obj []) = trees →
      entriesOf now room (.obj fields) = (roots.mapM (entriesOfRoot now room trees)).map List.flatten := by
    rintro _ rfl
    simp only [entriesOf]
    cases roots.mapM (entriesOfRoot now room ((Json.lookup "roots" fields).getD (.obj []))) <;> rfl
  cases hroots : Json.lookup "roots" fields with
  | none =>
    refine ⟨.obj [], hentries _ (by rw [hroots]; rfl), fun name => ?_⟩
    rw [treeOf, Json.get, Json.get?, hroots]
    rfl
  | some v =>
    obtain ⟨trees, rfl⟩ := h.areNamed v hroots
    refine ⟨.obj trees, hentries _ (by rw [hroots]; rfl), fun name => ?_⟩
    rw [treeOf, Json.get, Json.get?, hroots]
    rfl

/-- There is room for the trees of a file where there is room for the file. -/
theorem within_treeOf {name : String} {tree : Json} (h : Json.Within room file) (htree : treeOf file name = some tree) :
    Json.Within room tree := by
  have hget : (file.get "roots").get name = tree := by
    rw [Json.get]
    exact congrArg (Option.getD · Json.null) htree
  exact hget ▸ (h.get "roots").get name

/-- **Reading a file takes up the bookmarks that are seen in it.** -/
theorem reads_file (now : Timestamp) (h : WellShapedFile file) (hroom : Json.Within room file) :
    Reads now room "" (SeesIn file) (entriesOf now room file) := by
  obtain ⟨trees, hentries, htrees⟩ := entriesOf_eq now room h
  have hroot : ∀ name ∈ roots, Reads now room "" (fun x => ∃ tree, treeOf file name = some tree ∧ Sees tree x)
      (entriesOfRoot now room trees name) := by
    intro name hname
    unfold entriesOfRoot
    rw [htrees]
    cases htree : treeOf file name with
    | none => exact ⟨[], ⟨.nil, fun x => by simp⟩, rfl⟩
    | some tree =>
      obtain ⟨xs, hxs, hread⟩ := reads_tree now (h.wellShaped name hname tree htree) (within_treeOf hroom htree) ""
      exact ⟨xs, ⟨hxs.ordered, fun x => by simp [hxs.mem_iff]⟩, hread⟩
  obtain ⟨xs, hxs, hread⟩ := reads_parts 0 hroot
  refine ⟨xs, ⟨hxs.ordered, fun x => ?_⟩, hentries.trans hread⟩
  rw [hxs.mem_iff]
  refine and_congr_left fun _ => ?_
  simp only [SeesIn, Nat.zero_add]
  constructor
  · rintro ⟨i, name, y, hname, ⟨tree, htree, hy⟩, rfl⟩
    exact ⟨i, name, tree, y, hname, htree, hy, rfl⟩
  · rintro ⟨i, name, tree, y, hname, htree, hy, rfl⟩
    exact ⟨i, name, y, hname, ⟨tree, htree, hy⟩, rfl⟩

/-- A bookmark that is seen in a file of the right shape has a text for its address. -/
theorem SeesIn.url (h : SeesIn file x) (hshape : WellShapedFile file) (hkind : kindOf x.fields = .bookmark) :
    TextOrMissing "url" x.fields := by
  obtain ⟨i, name, tree, y, hname, htree, hy, rfl⟩ := h
  exact Sees.url (x := y) hy (hshape.wellShaped name (List.mem_of_getElem? hname) tree htree) hkind

/-- There is room for a node that is seen, and for the folders above it. -/
theorem SeesIn.within (h : SeesIn file x) (hroom : Json.Within room file) :
    Json.Within (room - x.folders.length) (.obj x.fields) := by
  obtain ⟨i, name, tree, y, _, htree, hy, rfl⟩ := h
  exact Sees.within (x := y) hy (within_treeOf hroom htree)

/-- The list of the bookmarks that are seen is determined. -/
theorem Lists.unique {seen : Sighting → Prop} {ys : List Sighting} (h : Lists seen xs) (h' : Lists seen ys) :
    xs = ys := by
  have hnodup : ∀ {zs : List Sighting}, Lists seen zs → zs.Nodup := by
    intro zs hz
    refine hz.ordered.imp ?_
    rintro x _ hlt rfl
    exact List.lt_irrefl _ hlt
  have hperm : xs.Perm ys := (List.perm_ext_iff_of_nodup (hnodup h) (hnodup h')).mpr fun x => by
    rw [h.mem_iff, h'.mem_iff]
  exact hperm.eq_of_pairwise (fun x y _ _ hlt hgt => absurd hgt (List.lt_asymm hlt)) h.ordered h'.ordered

/-! ## Bookmarks of a file -/

/-- The text of the file at a path is that of a value, for which there is room. -/
def Holds (fs : Files) (path : String) (room : Nat) (file : Json) : Prop :=
  ∃ text, fs.read path = .ok text ∧ Json.parse room text = .ok file

/-- The text of the file at a path is nested deeper than there is room. -/
def TooDeep (fs : Files) (path : String) (room : Nat) : Prop :=
  ∃ text, fs.read path = .ok text ∧ Json.parse room text = .error .tooDeep

/-- The text of a value is that of the value wherever it is not nested too deep. -/
theorem Holds.of_not_tooDeep (h : Holds fs path wide file) (hdeep : ¬TooDeep fs path room) :
    Holds fs path room file := by
  obtain ⟨text, htext, hparse⟩ := h
  refine ⟨text, htext, ?_⟩
  rcases Nat.le_total room wide with hle | hle
  · rcases Json.parse_agrees hle (s := text) with hfails | hsame
    · exact absurd ⟨text, htext, hfails⟩ hdeep
    · exact hsame.trans hparse
  · rcases Json.parse_agrees hle (s := text) with hfails | hsame
    · rw [hparse] at hfails
      cases hfails
    · exact hsame.symm.trans hparse

theorem Holds.not_tooDeep (h : Holds fs path room file) : ¬TooDeep fs path room := by
  obtain ⟨text, htext, hparse⟩ := h
  rintro ⟨text', htext', hfails⟩
  obtain rfl : text = text' := Except.ok.inj (htext.symm.trans htext')
  rw [hparse] at hfails
  cases hfails

theorem read_eq (h : Holds fs path room file) :
    read now room fs path = (entriesOf now room file).map fun es => es.map (·.bookmark) := by
  obtain ⟨text, htext, hparse⟩ := h
  simp only [read, readEntries, htext, parse, Except.bind, hparse]

/-- A file that is nested too deep is not read. -/
theorem read_of_tooDeep (h : TooDeep fs path room) : read now room fs path = .error .tooDeep := by
  obtain ⟨text, htext, hparse⟩ := h
  simp only [read, readEntries, htext, parse, Except.bind, hparse]
  rfl

/-- What entries need: an address that is a text, and room. -/
def Readable (room : Nat) (x : Sighting) : Prop :=
  TextOrMissing "url" x.fields ∧ Json.Within (room - x.folders.length) (.obj x.fields)

/-- Bookmarks that have entries are read as these. -/
theorem exists_bookmarks (now : Timestamp) (hreadable : ∀ x ∈ xs, Readable room x) (h : ∀ x ∈ xs, ¬x.Excessive) :
    ∃ es, xs.mapM (entryAt now room "") = .ok es ∧
      List.Forall₂ (IsBookmarkOf now) xs (es.map (·.bookmark)) := by
  obtain ⟨es, hes⟩ := exists_mapM_eq_ok.mpr fun x hx =>
    exists_entryAt now "" (hreadable x hx).1 (hreadable x hx).2 (h x hx)
  have hentries := (List.forall₂_and_left xs es).mpr ⟨hreadable, forall₂_of_mapM hes⟩
  refine ⟨es, hes, List.forall₂_map_right_iff.mpr (hentries.imp ?_)⟩
  rintro x e ⟨⟨hurl, hroom⟩, he⟩
  exact isBookmarkOf_entryAt hurl hroom he

/-- If one of them has none, reading fails. -/
theorem mapM_entryAt_of_excessive (now : Timestamp) (hreadable : ∀ x ∈ xs, Readable room x)
    (h : ∃ x ∈ xs, x.Excessive) : ∃ what, xs.mapM (entryAt now room "") = .error (.outOfRange what) := by
  cases hes : xs.mapM (entryAt now room "") with
  | ok es =>
    obtain ⟨x, hx, hexcessive⟩ := h
    obtain ⟨e, he⟩ := exists_mapM_eq_ok.mp ⟨es, hes⟩ x hx
    obtain ⟨what, hfails⟩ := entryAt_of_excessive now "" (hreadable x hx).1 (hreadable x hx).2 hexcessive
    rw [he] at hfails
    cases hfails
  | error fault =>
    obtain ⟨x, hx, hfails⟩ := exists_of_mapM_eq_error hes
    by_cases hexcessive : x.Excessive
    · obtain ⟨what, hfails'⟩ := entryAt_of_excessive now "" (hreadable x hx).1 (hreadable x hx).2 hexcessive
      rw [hfails] at hfails'
      cases hfails'
      exact ⟨what, rfl⟩
    · obtain ⟨e, he⟩ := exists_entryAt now "" (hreadable x hx).1 (hreadable x hx).2 hexcessive
      rw [hfails] at he
      cases he

/-- **A file for which there is room is read as the bookmarks that are seen in it if none of their times is excessive,
and else reading fails.** -/
theorem read_seen (h : Holds fs path wide file) (hshape : WellShapedFile file) (now : Timestamp) (room : Nat) :
    ∃ xs, Lists (SeesIn file) xs ∧ (¬TooDeep fs path room →
      ((∀ x ∈ xs, ¬x.Excessive) →
        ∃ bs, read now room fs path = .ok bs ∧ List.Forall₂ (IsBookmarkOf now) xs bs) ∧
      ((∃ x ∈ xs, x.Excessive) → ∃ what, read now room fs path = .error (.outOfRange what))) := by
  -- which bookmarks are seen does not depend on the room
  have hwide : ∃ xs, Lists (SeesIn file) xs := by
    obtain ⟨text, _, hparse⟩ := h
    obtain ⟨xs, hxs, _⟩ := reads_file now hshape (Json.within_of_parse hparse)
    exact ⟨xs, hxs⟩
  obtain ⟨xs, hxs⟩ := hwide
  refine ⟨xs, hxs, fun hdeep => ?_⟩
  have hhere := h.of_not_tooDeep hdeep
  obtain ⟨text, htext, hparse⟩ := hhere
  have hroom := Json.within_of_parse hparse
  obtain ⟨ys, hys, hread⟩ := reads_file now hshape hroom
  obtain rfl := hxs.unique hys
  have hreadable : ∀ x ∈ xs, Readable room x := fun x hx =>
    have hseen := (hxs.mem_iff x).mp hx
    ⟨hseen.1.url hshape hseen.2, hseen.1.within hroom⟩
  have hentries : read now room fs path = _ := read_eq ⟨text, htext, hparse⟩
  refine ⟨fun hnone => ?_, fun hsome => ?_⟩
  · obtain ⟨es, hes, hbookmarks⟩ := exists_bookmarks now hreadable hnone
    exact ⟨_, by rw [hentries, hread, hes]; rfl, hbookmarks⟩
  · obtain ⟨what, hfails⟩ := mapM_entryAt_of_excessive now hreadable hsome
    exact ⟨what, by rw [hentries, hread, hfails]; rfl⟩

/-! ## A file with two bookmarks -/

/-- A node of a kind with an address and a time. -/
def leafNode (kind url : String) (added : Json) : List (String × Json) :=
  [("type", .str kind), ("url", .str url), ("date_added", added)]

/-- A node with a name and children. -/
def branchNode (kind name : String) (children : List Json) : List (String × Json) :=
  [("type", .str kind), ("name", .str name), ("children", .arr children)]

/-- A file with a bookmark in two folders, another one at a root, and one that is hidden by a node of another kind; the
time of the first one is given. -/
def sampleFile (added : Json) : Json :=
  .obj [("roots", .obj [("synced", .obj (leafNode "url" "file:///b" .null)),
    ("bookmark_bar", .obj (branchNode "folder" "Bar" [
      .obj (branchNode "group" "Hidden" [.obj (leafNode "url" "http://c.org/" .null)]),
      .obj (branchNode "folder" "Work" [.obj (leafNode "url" "http://a.org/" added)])]))])]

/-- The bookmarks that are seen in the file. -/
def sampleSightings (added : Json) : List Sighting :=
  [⟨[0, 1, 0], ["Bar", "Work"], leafNode "url" "http://a.org/" added⟩,
    ⟨[2], [], leafNode "url" "file:///b" .null⟩]

theorem lists_sampleFile (added : Json) : Lists (SeesIn (sampleFile added)) (sampleSightings added) := by
  have hwork : Sees (.obj (branchNode "folder" "Work" [.obj (leafNode "url" "http://a.org/" added)]))
      ⟨[0], ["Work"], leafNode "url" "http://a.org/" added⟩ := .child (i := 0) rfl rfl (.root _)
  refine ⟨List.pairwise_pair.mpr (by decide : [0, 1, 0] < [2]), fun x => ⟨fun hx => ?_, ?_⟩⟩
  · rcases List.mem_pair.mp hx with rfl | rfl
    · exact ⟨⟨0, "bookmark_bar", _, ⟨[1, 0], ["Bar", "Work"], _⟩, rfl, rfl, .child (i := 1) rfl rfl hwork, rfl⟩, rfl⟩
    · exact ⟨⟨2, "synced", _, ⟨[], [], _⟩, rfl, rfl, .root _, rfl⟩, rfl⟩
  · rintro ⟨⟨i, name, tree, y, hname, htree, hy, rfl⟩, hkind⟩
    refine List.mem_pair.mpr ?_
    match i, hname with
    | 0, hname =>
      cases hname
      cases htree
      rcases (sees_folder rfl).mp hy with rfl | ⟨j, child, z, hchild, hz, rfl⟩
      · cases hkind
      · match j, hchild with
        | 0, hchild =>
          -- the bookmark below is hidden
          cases hchild
          obtain rfl := (sees_leaf (by decide)).mp hz
          cases hkind
        | 1, hchild =>
          cases hchild
          rcases (sees_folder rfl).mp hz with rfl | ⟨k, leaf, u, hleaf, hu, rfl⟩
          · cases hkind
          · match k, hleaf with
            | 0, hleaf =>
              cases hleaf
              obtain rfl := (sees_leaf fun h => by cases h).mp hu
              exact .inl rfl
    | 1, hname =>
      cases hname
      cases htree
    | 2, hname =>
      cases hname
      cases htree
      obtain rfl := (sees_leaf (by decide)).mp hy
      exact .inr rfl

theorem wellShaped_sampleFile (added : Json) : WellShapedFile (sampleFile added) := by
  have hleaf : ∀ url added, WellShaped (.obj (leafNode "url" url added)) := fun url added =>
    .bookmark rfl fun v hv => ⟨url, (Option.some.inj hv).symm⟩
  have hfolder : ∀ name children, (∀ child ∈ children, WellShaped child) →
      WellShaped (.obj (branchNode "folder" name children)) := fun name children h =>
    .folder rfl (fun v hv => ⟨name, (Option.some.inj hv).symm⟩) (fun v hv => ⟨children, (Option.some.inj hv).symm⟩) h
  have hbar : WellShaped (.obj (branchNode "folder" "Bar" [
      .obj (branchNode "group" "Hidden" [.obj (leafNode "url" "http://c.org/" .null)]),
      .obj (branchNode "folder" "Work" [.obj (leafNode "url" "http://a.org/" added)])])) := by
    refine hfolder _ _ fun child hchild => ?_
    rcases List.mem_pair.mp hchild with rfl | rfl
    · exact .other rfl
    · refine hfolder _ _ fun leaf hmem => ?_
      rw [List.mem_singleton.mp hmem]
      exact hleaf _ _
  refine ⟨⟨_, rfl⟩, fun v hv => ⟨_, (Option.some.inj hv).symm⟩, fun name hname tree htree => ?_⟩
  simp only [roots, List.mem_cons, List.not_mem_nil, or_false] at hname
  rcases hname with rfl | rfl | rfl
  · cases htree
    exact hbar
  · cases htree
  · cases htree
    exact hleaf _ _

theorem plain_leafNode {kind url : String} {added : Json} (h : Json.Plain room added) :
    Json.Plain (room + 1) (.obj (leafNode kind url added)) := by
  refine .obj (by simp [leafNode]) fun f hf => ?_
  simp only [leafNode, List.mem_cons, List.not_mem_nil, or_false] at hf
  rcases hf with rfl | rfl | rfl
  · exact .str _
  · exact .str _
  · exact h

theorem plain_branchNode {kind name : String} {children : List Json}
    (h : ∀ child ∈ children, Json.Plain room child) :
    Json.Plain (room + 2) (.obj (branchNode kind name children)) := by
  refine .obj (by simp [branchNode]) fun f hf => ?_
  simp only [branchNode, List.mem_cons, List.not_mem_nil, or_false] at hf
  rcases hf with rfl | rfl | rfl
  · exact .str _
  · exact .str _
  · exact .arr h

theorem plain_sampleFile {added : Json} (h : Json.Plain room added) : Json.Plain (room + 7) (sampleFile added) := by
  have hbar : Json.Plain (room + 5) (.obj (branchNode "folder" "Bar" [
      .obj (branchNode "group" "Hidden" [.obj (leafNode "url" "http://c.org/" .null)]),
      .obj (branchNode "folder" "Work" [.obj (leafNode "url" "http://a.org/" added)])])) := by
    refine plain_branchNode fun child hchild => ?_
    rcases List.mem_pair.mp hchild with rfl | rfl
    · exact plain_branchNode fun leaf hmem => List.mem_singleton.mp hmem ▸ plain_leafNode .null
    · exact plain_branchNode fun leaf hmem => List.mem_singleton.mp hmem ▸ plain_leafNode h
  refine .obj (by simp) fun f hf => ?_
  rw [List.mem_singleton.mp hf]
  refine .obj (by simp) fun f hf => ?_
  rcases List.mem_pair.mp hf with rfl | rfl
  · exact plain_leafNode .null
  · exact hbar

/-- The file at a path. -/
def sampleFiles (added : Json) : Files := { entries := [("/a", (sampleFile added).compact)] }

theorem holds_sampleFile {added : Json} (h : Json.Plain room added) :
    Holds (sampleFiles added) "/a" (room + 7) (sampleFile added) := by
  have hread : (sampleFiles added).read "/a" = .ok (sampleFile added).compact := by
    simp [sampleFiles, Files.read, Files.find?]
  exact ⟨_, hread, Json.parse_compact (plain_sampleFile h)⟩

/-- Where there is the usual room, a text is the time of the first bookmark. -/
theorem holds_usually (time : String) : Holds (sampleFiles (.str time)) "/a" usualRoom (sampleFile (.str time)) :=
  show Holds _ _ (953 + 7) _ from holds_sampleFile (.str time)

/-- A time of the calendar. -/
theorem wholeNumber_within : wholeNumber (.str "11644473600000000") = .ok (some 11644473600000000) := by
  have hread : Decimal.readInt? "11644473600000000" = some 11644473600000000 := by decide +kernel
  rw [wholeNumber, hread]

/-- The first microsecond behind the calendar. -/
theorem excessive_beyond : Excessive (.str "265046774400000000") := by
  have hread : Decimal.readInt? "265046774400000000" = some 265046774400000000 := by decide +kernel
  exact .late (congrArg Except.ok hread) (by decide +kernel)

/-- The time of the first bookmark is that which is given. -/
theorem excessive_sampleFile {added : Json} {x : Sighting} (hx : SeesIn (sampleFile added) x)
    (hkind : kindOf x.fields = .bookmark) (h : x.Excessive) : Excessive added := by
  have hnull : ¬Excessive .null := exists_timeOf_iff.mp ⟨none, rfl⟩
  rcases List.mem_pair.mp (((lists_sampleFile added).mem_iff x).mpr ⟨hx, hkind⟩) with rfl | rfl
  · exact h.resolve_right hnull
  · exact absurd h (not_or.mpr ⟨hnull, hnull⟩)

/-! ## Reading -/

/-- **A file of the right shape is read as its bookmarks:** one for each bookmark that is seen in it, in the order of
the file, and nothing for any other node, as long as it is not nested too deep and none of their times is excessive. -/
theorem read_in_order (h : Holds fs path wide file) (hshape : WellShapedFile file) (hdeep : ¬TooDeep fs path room)
    (hnone : ∀ x, SeesIn file x → kindOf x.fields = .bookmark → ¬x.Excessive) (now : Timestamp) :
    ∃ xs bs, Lists (SeesIn file) xs ∧ read now room fs path = .ok bs ∧ List.Forall₂ (IsBookmarkOf now) xs bs := by
  obtain ⟨xs, hxs, hread⟩ := read_seen h hshape now room
  obtain ⟨bs, hbs, hbookmarks⟩ := (hread hdeep).1 fun x hx =>
    hnone x ((hxs.mem_iff x).mp hx).1 ((hxs.mem_iff x).mp hx).2
  exact ⟨xs, bs, hxs, hbs, hbookmarks⟩

/-- Both bookmarks are read, the first one with the path of its folders. -/
theorem read_in_order_sample :
    let added : Json := .str "11644473600000000"
    Holds (sampleFiles added) "/a" usualRoom (sampleFile added) ∧ WellShapedFile (sampleFile added) ∧
      ¬TooDeep (sampleFiles added) "/a" usualRoom ∧ ¬Excessive added ∧
      ∃ a b, read .epoch usualRoom (sampleFiles added) "/a" = .ok [a, b] ∧ a.url = "http://a.org/" ∧
        a.domain = "a.org" ∧ a.folderPath = "Bar/Work" ∧ b.url = "file:///b" ∧ b.domain = "local-file" ∧
        b.folderPath = "" := by
  intro added
  have hholds : Holds (sampleFiles added) "/a" usualRoom (sampleFile added) := holds_usually _
  have hnone : ¬Excessive added := not_excessive_of_le wholeNumber_within (by decide +kernel)
  obtain ⟨xs, bs, hxs, hread, hbookmarks⟩ := read_in_order hholds (wellShaped_sampleFile added) hholds.not_tooDeep
    (fun x hx hkind h => hnone (excessive_sampleFile hx hkind h)) .epoch
  obtain rfl := hxs.unique (lists_sampleFile added)
  cases hbookmarks with
  | cons ha hrest =>
    cases hrest with
    | cons hb hend =>
      cases hend
      have hurl := (Json.str.inj ha.url).symm
      have hurl' := (Json.str.inj hb.url).symm
      refine ⟨hholds, wellShaped_sampleFile added, hholds.not_tooDeep, hnone, _, _, hread, hurl, ?_, ?_, hurl', ?_, ?_⟩
      · rw [ha.domain, hurl]
        decide +kernel
      · rw [ha.folderPath (by decide)]
        decide +kernel
      · rw [hb.domain, hurl']
        decide +kernel
      · rw [hb.folderPath (by decide)]
        decide +kernel

/-- A file whose first bookmark has a time beyond the calendar is not read, although both bookmarks are seen in it. -/
theorem not_read_in_order :
    let added : Json := .str "265046774400000000"
    Holds (sampleFiles added) "/a" usualRoom (sampleFile added) ∧ WellShapedFile (sampleFile added) ∧
      Lists (SeesIn (sampleFile added)) (sampleSightings added) ∧
      ∃ what, read .epoch usualRoom (sampleFiles added) "/a" = .error (.outOfRange what) := by
  intro added
  have hholds : Holds (sampleFiles added) "/a" usualRoom (sampleFile added) := holds_usually _
  obtain ⟨xs, hxs, hread⟩ := read_seen hholds (wellShaped_sampleFile added) .epoch usualRoom
  obtain rfl := hxs.unique (lists_sampleFile added)
  exact ⟨hholds, wellShaped_sampleFile added, hxs,
    (hread hholds.not_tooDeep).2 ⟨_, List.mem_cons_self, .inl excessive_beyond⟩⟩

/-- **A timestamp fails exactly if it is excessive, and with it the file that has it.**  Any other value stands for no
time or for the time that its whole number of microseconds gives, and these times come in the order of the numbers; a
file of the right shape with other values is read as all its bookmarks, unless it is nested too deep to be read at
all. -/
theorem read_unless_excessive (v v' : Json) (h : Holds fs path wide file) (hshape : WellShapedFile file)
    (now : Timestamp) (room : Nat) :
    (Excessive v → ∃ what, timeOf v = .error (.outOfRange what)) ∧
      (¬Excessive v → timeOf v = .ok none ∧ (∀ n, wholeNumber v = .ok (some n) → n ≤ 0) ∨
        ∃ n t, wholeNumber v = .ok (some n) ∧ 0 < n ∧ timeOf v = .ok (some t) ∧
          t.instant = firstTime.instant + n ∧ t.offset = 0) ∧
      (∀ n n' t t', wholeNumber v = .ok (some n) → wholeNumber v' = .ok (some n') → timeOf v = .ok (some t) →
        timeOf v' = .ok (some t') → (t.instant < t'.instant ↔ n < n')) ∧
      (TooDeep fs path room → read now room fs path = .error .tooDeep) ∧
      ∃ xs, Lists (SeesIn file) xs ∧ (¬TooDeep fs path room →
        ((∀ x ∈ xs, ¬x.Excessive) →
          ∃ bs, read now room fs path = .ok bs ∧ List.Forall₂ (IsBookmarkOf now) xs bs) ∧
        ((∃ x ∈ xs, x.Excessive) → ∃ what, read now room fs path = .error (.outOfRange what))) := by
  refine ⟨timeOf_of_excessive, timeOf_of_not_excessive, ?_, read_of_tooDeep, read_seen h hshape now room⟩
  intro n n' t t' hn hn' ht ht'
  rw [instant_of_timeOf hn ht, instant_of_timeOf hn' ht']
  omega

/-- Two times, one later than the other; and a file with the first of them. -/
theorem read_unless_excessive_sample :
    let added : Json := .str "11644473600000000"
    let later : Json := .int 11644473600000001
    Holds (sampleFiles added) "/a" usualRoom (sampleFile added) ∧ WellShapedFile (sampleFile added) ∧
      (∃ t t', timeOf added = .ok (some t) ∧ timeOf later = .ok (some t') ∧ t.instant < t'.instant) ∧
      ∃ a b, read .epoch usualRoom (sampleFiles added) "/a" = .ok [a, b] := by
  intro added later
  have hadded : wholeNumber added = .ok (some 11644473600000000) := wholeNumber_within
  have hlater : wholeNumber later = .ok (some 11644473600000001) := rfl
  have hnone : ¬Excessive added := not_excessive_of_le hadded (by decide +kernel)
  have hnone' : ¬Excessive later := not_excessive_of_le hlater (by decide +kernel)
  have hholds : Holds (sampleFiles added) "/a" usualRoom (sampleFile added) := holds_usually _
  have hshape := wellShaped_sampleFile added
  obtain ⟨_, htime, horder, _, xs, hxs, hread⟩ := read_unless_excessive added later hholds hshape .epoch usualRoom
  obtain ⟨_, htime', _⟩ := read_unless_excessive later added hholds hshape .epoch usualRoom
  have hexists : ∃ t, timeOf added = .ok (some t) := by
    rcases htime hnone with ⟨_, hle⟩ | ⟨_, t, _, _, ht, _⟩
    · exact absurd (hle _ hadded) (by decide)
    · exact ⟨t, ht⟩
  have hexists' : ∃ t, timeOf later = .ok (some t) := by
    rcases htime' hnone' with ⟨_, hle⟩ | ⟨_, t, _, _, ht, _⟩
    · exact absurd (hle _ hlater) (by decide)
    · exact ⟨t, ht⟩
  obtain ⟨t, ht⟩ := hexists
  obtain ⟨t', ht'⟩ := hexists'
  have hlt : t.instant < t'.instant := (horder _ _ t t' hadded hlater ht ht').mpr (by decide)
  obtain rfl := hxs.unique (lists_sampleFile added)
  obtain ⟨bs, hbs, hbookmarks⟩ := (hread hholds.not_tooDeep).1 fun x hx h =>
    hnone (excessive_sampleFile ((hxs.mem_iff x).mp hx).1 ((hxs.mem_iff x).mp hx).2 h)
  cases hbookmarks with
  | cons _ hrest =>
    cases hrest with
    | cons _ hend =>
      cases hend
      exact ⟨hholds, hshape, ⟨t, t', ht, ht', hlt⟩, _, _, hbs⟩

/-- The first microsecond behind the calendar, and an infinity, have no time and fail. -/
theorem timeOf_beyond_calendar :
    (∃ what, timeOf (.str "265046774400000000") = .error (.outOfRange what)) ∧
      ∃ what, timeOf (.float (Float.ofBits 0x7ff0000000000000)) = .error (.outOfRange what) :=
  ⟨timeOf_of_excessive excessive_beyond, timeOf_of_excessive (.infinite (by decide))⟩

end Shelfmark.Chrome
