import Shelfmark.Index.Basic

/-!
# Snapshots

A snapshot is an index as a JSON value.

* `Index.snapshot`: the snapshot of an index.
* `Index.ofSnapshot`: the index of a snapshot, or why it cannot be used.
-/

namespace Shelfmark.Index

/-- The version of the layout of snapshots. -/
def snapshotVersion : Nat := 1

/-- The fields of a document as they stand in a snapshot. -/
def documentJson (d : Document) : Json := .obj (d.fields.map fun (name, tokens) => (name, Json.ofStrings tokens))

/-- The snapshot of an index. -/
def snapshot (ix : Index) : Json :=
  .obj [("schema_version", .int snapshotVersion), ("fields", Json.ofStrings ix.fields),
    ("documents", .obj (ix.documents.map fun d => (d.id, documentJson d)))]

/-! ## Reading -/

/-- The members of a value: the items of an array, the characters of a text, the keys of an object. -/
def members? : Json → Option (List Json)
  | .arr items => some items
  | .str s => some (s.toList.map fun c => .str (String.ofList [c]))
  | .obj fields => some (fields.map fun f => .str f.1)
  | _ => none

/-- A value can be a name: arrays and objects cannot. -/
def isName : Json → Bool
  | .arr _ => false
  | .obj _ => false
  | _ => true

/-- The names that are members of a value. -/
def names? (v : Json) : Option (List Json) := (members? v).filter fun ms => ms.all isName

/-- Two lists have the same members. -/
def sameMembers (xs ys : List Json) : Bool := (xs.all fun x => ys.any x.same) && ys.all fun y => xs.any y.same

/-- The tokens of a field. -/
def readTokens (room : Nat) (v : Json) : Except Fault (List String) :=
  match members? v with
  | some ms => ms.mapM (·.display room)
  | none => .error .snapshotCorrupt

/-- The fields of a document. -/
def readEntries (room : Nat) (entries : List (String × Json)) : Except Fault (List (String × List String)) :=
  entries.mapM fun (name, tokens) => (readTokens room tokens).map (name, ·)

/-- The document with an id in a snapshot of an index with some fields. -/
def readDocument (room : Nat) (fields : List Json) (id : String) (v : Json) : Except Fault Document :=
  match names? v with
  | none => .error .snapshotCorrupt
  | some names =>
    if sameMembers names fields then
      match v with
      | .obj entries => (readEntries room entries).map fun fs => ⟨id, fs⟩
      | _ => .error .snapshotCorrupt
    else .error (.snapshotFields id)

/-- A part of a snapshot. -/
def snapshotPart (part : String) (entries : List (String × Json)) : Except Fault Json :=
  match Json.lookup part entries with
  | some v => .ok v
  | none => .error (.snapshotLacks part)

/-- The index of a snapshot.  A version and tokens that the host does not spell out fail in their own way. -/
def ofSnapshot (room : Nat) (v : Json) : Except Fault Index :=
  match v with
  | .obj entries => do
    let version := v.get "schema_version"
    if version.same (.int snapshotVersion) then
      let fields ← match names? (← snapshotPart "fields" entries) with
        | some names => .ok names
        | none => .error .snapshotCorrupt
      match ← snapshotPart "documents" entries with
      | .obj documents =>
        let ds ← documents.mapM fun (id, d) => readDocument room fields id d
        return ds.foldl insert { fields := fields.map Json.plainText }
      | _ => .error .snapshotCorrupt
    else
      let found ← version.literal room
      .error (.snapshotVersion found snapshotVersion)
  | _ => .error .snapshotNoObject

end Shelfmark.Index
