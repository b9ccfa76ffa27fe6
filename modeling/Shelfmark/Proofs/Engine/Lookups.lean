import Shelfmark.Proofs.Bookmark.Records
import Shelfmark.Proofs.Engine.Runs
import Shelfmark.Proofs.Fallible
import Shelfmark.Proofs.Store.Shelf

/-!
# Looking bookmarks up

A look-up reads bookmarks from their records, and this gives them as they were kept (`run_allBookmarks`,
`run_bookmarkWithId`).  So a bookmark survives the way from any record through the store (`survives_records`).
-/

namespace Shelfmark.Engine

variable {α : Type} {w : State α}

/-! ## Look-ups -/

theorem mapM_reread (bs : List Bookmark) : bs.mapM Bookmark.reread = .ok bs := by
  have hread : ∀ b ∈ bs, b.reread = pure (id b) := fun b _ => b.reread_eq
  rw [mapM_of_pure hread, List.map_id]
  rfl

theorem run_allBookmarks (h : w.Ready .getAll) : allBookmarks.run w = (.ok w.store.shelf.all, w) := by
  rw [allBookmarks, run_store h, mapM_reread]

theorem run_bookmarkWithId (h : w.Ready .getOne) (id : String) :
    (bookmarkWithId id).run w = (.ok (w.store.shelf.get? id), w) := by
  rw [bookmarkWithId, run_store h]
  cases w.store.shelf.get? id with
  | none => rfl
  | some b =>
    show (Except.map some b.reread, w) = _
    rw [b.reread_eq]
    rfl

/-! ## Keeping -/

theorem run_heed {op : StoreOperation} (h : w.Ready op) : (heed op).run w = (.ok (), w) := by
  simp only [heed, Task.run, h.1]

/-- Heeding whether an operation is in order changes nothing. -/
theorem heed_unchanged (op : StoreOperation) (w : State α) : ((heed op).run w).2 = w := by
  simp only [heed, Task.run]
  cases w.faultOf op <;> rfl

theorem run_keepOne (ho : w.Ready .upsertOne) (hm : w.Ready .upsertMany) (b : Bookmark) : (keepOne b).run w =
    (.ok (), { w with store := { w.store with shelf := w.store.shelf.put b } }) := by
  simp only [keepOne, Task.run_bind, run_heed ho, Task.follow_ok, keepAll, run_store hm, Shelf.putAll, List.foldl_cons,
    List.foldl_nil, Task.run_pure]

/-! ## From records through the store -/

/-- **A bookmark that was read from a record is read again from its own record and after it was kept in the store; and
the record may give each field with two names under either of them.** -/
theorem survives_records {fields : List (String × Json)} {b : Bookmark}
    (h : Bookmark.readRecord (.obj fields) = .ok b) :
    Bookmark.readRecord b.toRecord = .ok b ∧
      (∀ w : State α, w.Ready .upsertOne → w.Ready .upsertMany → w.Ready .getOne →
        ∃ w', (keepOne b).run w = (.ok (), w') ∧ (bookmarkWithId b.id).run w' = (.ok (some b), w')) ∧
      ∀ p ∈ Bookmark.pairedNames, ∀ old new, (old, new) = p ∨ (new, old) = p → Json.lookup new fields = none →
        Bookmark.readRecord (.obj (Bookmark.renameField old new fields)) = .ok b := by
  refine ⟨b.reread_eq, fun w ho hm hg => ?_, fun p hp old new hnames hnew => ?_⟩
  · refine ⟨_, run_keepOne ho hm b, ?_⟩
    have hkept : ({ w with store := { w.store with shelf := w.store.shelf.put b } } : State α).Ready .getOne := hg
    rw [run_bookmarkWithId hkept]
    show (Except.ok ((w.store.shelf.put b).get? b.id), _) = _
    rw [Shelf.get?_put]
  · exact (Bookmark.readFields_renameField hp hnames hnew).trans h

/-- A record in camel case, with a local time and its keywords in one text, is kept and looked up. -/
theorem survives_records_sample :
    let fields : List (String × Json) := [("id", .str "a"), ("keywords", .str "lean, proofs"),
      ("dateAdded", .str "2024-06-15T12:00:00.000001+05:30")]
    ∃ b, Bookmark.readRecord (.obj fields) = .ok b ∧ b.keywords = ["lean", "proofs"] ∧
      b.dateAdded.offset = 19800000000 ∧ Bookmark.readRecord b.toRecord = .ok b ∧
      Bookmark.readRecord (.obj (Bookmark.renameField "dateAdded" "date_added" fields)) = .ok b ∧
      ∃ w', (keepOne b).run ({} : State Unit) = (.ok (), w') ∧ (bookmarkWithId "a").run w' = (.ok (some b), w') := by
  intro fields
  have hvalues : (Bookmark.readRecord (.obj fields)).toOption.map (fun b => (b.id, b.keywords, b.dateAdded.offset)) =
      some ("a", ["lean", "proofs"], 19800000000) := by decide +kernel
  obtain ⟨b, hread⟩ : ∃ b, Bookmark.readRecord (.obj fields) = .ok b := ⟨_, rfl⟩
  simp only [hread, Except.toOption, Option.map_some, Option.some.injEq, Prod.mk.injEq] at hvalues
  obtain ⟨hid, hkeywords, hoffset⟩ := hvalues
  obtain ⟨hagain, hkept, hrenamed⟩ := survives_records hread
  refine ⟨b, hread, hkeywords, hoffset, hagain, ?_, ?_⟩
  · exact hrenamed ("date_added", "dateAdded") (by decide +kernel) _ _ (Or.inr rfl) (by rfl)
  · exact hid ▸ hkept {} ⟨rfl, rfl⟩ ⟨rfl, rfl⟩ ⟨rfl, rfl⟩

end Shelfmark.Engine
