/-!
# The host

What the program finds on the machine that it runs on.  Every theorem holds for each host, so nothing depends on how
much room a particular one leaves.

* `Host`: how deep nested things may be, and which characters have names.
-/

namespace Shelfmark

/-- How many levels deep nested things may be where nothing else is said. -/
def usualRoom : Nat := 960

/-- The host of the program. -/
structure Host where
  /-- How many levels deep values, patterns and folders may be nested; what is nested deeper is given up. -/
  room : Nat := usualRoom
  /-- The character with a name. -/
  charNamed : String → Option Char := fun _ => none
  /-- There is room for the values that the program itself makes. -/
  room_enough : 8 ≤ room := by decide

instance : Inhabited Host := ⟨{}⟩

end Shelfmark
