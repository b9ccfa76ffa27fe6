import Shelfmark.Settings
import Shelfmark.Store.Basic

/-!
# The state of the engine

What the operations of the engine read and change: the host, the store and its faults, the clock, the settings, the
indexes that were ever loaded, which of them is current, and the lock that writers hold.

An index that has been replaced may still be in the hands of an operation that began earlier, so every index that was
loaded keeps its number.
-/

namespace Shelfmark.Engine

/-- The operations of a store. -/
inductive StoreOperation
  | getAll
  | getOne
  | getByDomain
  | getByCategory
  | getCache
  | setCache
  | clearCache
  | storeSimilarities
  | getSimilarities
  | upsertOne
  | upsertMany
  | delete
  | clearSimilarities
  | close
  | open
  deriving DecidableEq, Repr

/-- An index that was loaded; its search may be out of order. -/
structure Edition where
  index : Index
  isBroken : Bool := false
  deriving Inhabited

/-- What the operations of the engine read and change. -/
structure State (α : Type) where
  host : Host := {}
  store : Store α := {}
  /-- The operations of the store that are out of order, with what they say. -/
  faults : List (StoreOperation × String) := []
  now : Timestamp := Timestamp.epoch
  settings : Settings := {}
  /-- The indexes that were ever loaded. -/
  editions : List Edition := []
  /-- The number of the current index. -/
  current : Option Nat := none
  /-- The lock of writers is held. -/
  isLocked : Bool := false
  deriving Inhabited

namespace State

variable {α : Type}

/-- What a store operation says if it is out of order. -/
def faultOf (w : State α) (op : StoreOperation) : Option String :=
  (w.faults.find? fun f => f.1 == op).map Prod.snd

/-- The index with a number. -/
def edition (w : State α) (i : Nat) : Edition := w.editions.getD i default

/-- The current index. -/
def currentIndex? (w : State α) : Option Index := w.current.map fun i => (w.edition i).index

/-- Makes an index the current one, under a new number. -/
def publish (w : State α) (ix : Index) : Nat × State α :=
  (w.editions.length, { w with editions := w.editions ++ [⟨ix, false⟩], current := some w.editions.length })

/-- Replaces the index with a number. -/
def setEdition (w : State α) (i : Nat) (ix : Index) : State α :=
  { w with editions := w.editions.modify i fun e => { e with index := ix } }

/-- Puts the search of the index with a number out of order. -/
def breakEdition (w : State α) (i : Nat) : State α :=
  { w with editions := w.editions.modify i fun e => { e with isBroken := true } }

/-- An engine that has loaded nothing yet, over the same store. -/
def fresh (w : State α) : State α := { w with editions := [], current := none, isLocked := false }

end State

end Shelfmark.Engine
