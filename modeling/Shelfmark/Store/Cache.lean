import Shelfmark.Json.Reader
import Shelfmark.Number
import Shelfmark.Store.Wildcard
import Shelfmark.Time.Timestamp

/-!
# The cache

Values under keys.  A value may have a lifetime, after which it is gone.

* `Cache.set`, `Cache.get`, `Cache.clear`: changes and look-ups.
* `CacheEntry.isExpired`: the lifetime of a value is over.
-/

namespace Shelfmark

/-- What stands under a key: a value, or a text that does not read as one, with what its reading says. -/
inductive CacheContent
  | value (v : Json)
  | unreadable (e : Fault)

instance : Inhabited CacheContent := ⟨.value .null⟩

/-- What a JSON text stands for. -/
def CacheContent.ofText (room : Nat) (s : String) : CacheContent :=
  match Json.parse room s with
  | .ok v => .value v
  | .error e => .unreadable e

/-- What stands under a key, since when, and for how many seconds. -/
structure CacheEntry where
  key : String
  content : CacheContent
  since : Timestamp
  lifetime : Option Number

/-- More seconds than its lifetime have passed since the value was set. -/
def CacheEntry.isExpired (e : CacheEntry) (now : Timestamp) : Bool :=
  e.lifetime.any fun n => n.toFloat < now.seconds - e.since.seconds

/-- Values under keys. -/
structure Cache where
  entries : List CacheEntry := []
  deriving Inhabited

namespace Cache

/-- Sets an entry in a list: in place of the one with its key, or else at the end. -/
def replaceIn (e : CacheEntry) : List CacheEntry → List CacheEntry
  | [] => [e]
  | f :: rest => if f.key == e.key then e :: rest else f :: replaceIn e rest

/-- Sets the value of a key. -/
def set (c : Cache) (now : Timestamp) (key : String) (v : Json) (lifetime : Option Number) : Cache :=
  ⟨replaceIn ⟨key, .value v, now, lifetime⟩ c.entries⟩

/-- The entry of a key. -/
def entry? (c : Cache) (key : String) : Option CacheEntry := c.entries.find? fun e => e.key == key

/-- Removes a key. -/
def remove (c : Cache) (key : String) : Cache := ⟨c.entries.filter fun e => e.key != key⟩

/-- The value of a key, null if there is none, and the cache afterwards: a value whose lifetime is over is gone. -/
def get (c : Cache) (now : Timestamp) (key : String) : Except Fault Json × Cache :=
  match c.entry? key with
  | none => (.ok .null, c)
  | some e =>
    if e.isExpired now then (.ok .null, c.remove key)
    else
      match e.content with
      | .value v => (.ok v, c)
      | .unreadable e => (.error e, c)

/-- A text occurs in a key, whatever the case of ASCII letters: the key is looked for with wildcards. -/
def keyMatches (pattern key : String) : Bool := Wildcard.accepts (Wildcard.within pattern.toList) key.toList

/-- The number of bytes beyond which a pattern with wildcards is refused. -/
def wildcardCap : Nat := 50000

/-- A text is looked for with a pattern that is too long.  Nobody notices that if there is no key to be compared. -/
def refuses (c : Cache) (pattern : String) : Bool :=
  !pattern.isEmpty && !c.entries.isEmpty &&
    wildcardCap < (String.ofList (Wildcard.within pattern.toList)).utf8ByteSize

/-- Removes the keys in which a pattern occurs, all keys for an empty pattern. -/
def clear (c : Cache) (pattern : String) : Cache :=
  ⟨c.entries.filter fun e => !pattern.isEmpty && !keyMatches pattern e.key⟩

/-- Replaces what stands under a key, if it is there, by the reading of a text. -/
def overwrite (c : Cache) (key : String) (content : CacheContent) : Cache :=
  ⟨c.entries.map fun e => if e.key == key then { e with content } else e⟩

end Cache

end Shelfmark
