import Shelfmark.Decimal.Numeral
import Shelfmark.Fault
import Shelfmark.Host

/-!
# What can be spelled

A host spells out whole numbers up to a number of digits, and values up to a depth of nesting; both in messages and
when values are written.

* `Json.checkBounds`: fails at the first thing in a value that a host does not spell.
* `Json.literal`, `Json.display`: the spelling of a value, if the host spells it.
-/

namespace Shelfmark.Json

/-- A whole number has no more digits than are written. -/
@[irreducible] def isShort (n : Int) : Bool := n.natAbs < Nat.pow 10 Decimal.maxIntDigits

mutual
/-- Fails at the first number in a value that is too long, and at the first array or object that is nested too deep. -/
def checkBounds (room : Nat) : Json → Except Fault Unit
  | int n => if isShort n then .ok () else .error .numberTooLong
  | arr items =>
    match room with
    | 0 => .error .tooDeep
    | room + 1 => checkItems room items
  | obj fields =>
    match room with
    | 0 => .error .tooDeep
    | room + 1 => checkFields room fields
  | _ => .ok ()

/-- The same for the items of an array. -/
def checkItems (room : Nat) : List Json → Except Fault Unit
  | [] => .ok ()
  | x :: xs => do
    checkBounds room x
    checkItems room xs

/-- The same for the fields of an object. -/
def checkFields (room : Nat) : List (String × Json) → Except Fault Unit
  | [] => .ok ()
  | (_, v) :: fs => do
    checkBounds room v
    checkFields room fs
end

/-- The spelling of a value inside a message. -/
def literal (room : Nat) (v : Json) : Except Fault String := (v.checkBounds room).map fun _ => v.spelling

/-- The spelling of a value that stands by itself: a text is written as it is. -/
def display (room : Nat) (v : Json) : Except Fault String := (v.checkBounds room).map fun _ => v.plainText

end Shelfmark.Json
