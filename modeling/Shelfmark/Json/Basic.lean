import Shelfmark.Decimal.Text

/-!
# JSON values

The values that records, cache entries, snapshots and imported files are made of.  Whole numbers are exact and kept
apart from doubles; an object keeps its fields in the order in which they were first given.

* `Json.get?`: a field of an object.
* `Json.isTrue`: the truth of a value: everything but null, false, zero and what is empty.
* `Json.same`: equality of values, in which numbers are compared by value and objects without regard to order.
-/

namespace Shelfmark

/-- A JSON value. -/
inductive Json where
  | null
  | bool (b : Bool)
  | int (n : Int)
  | float (x : Float)
  | str (s : String)
  | arr (items : List Json)
  | obj (fields : List (String × Json))
  deriving Inhabited

namespace Json

/-- The value of the first field with a key. -/
def lookup (key : String) : List (String × Json) → Option Json
  | [] => none
  | (k, v) :: rest => if k == key then some v else lookup key rest

/-- Sets the value of a key: in place if the key is there, and else at the end. -/
def setField (key : String) (value : Json) : List (String × Json) → List (String × Json)
  | [] => [(key, value)]
  | (k, v) :: rest => if k == key then (k, value) :: rest else (k, v) :: setField key value rest

/-- A field of an object; nothing for a value that is no object. -/
def get? (key : String) : Json → Option Json
  | obj fields => lookup key fields
  | _ => none

/-- A field of an object, null if it is missing. -/
def get (key : String) (v : Json) : Json := (v.get? key).getD null

/-- The truth of a value: everything but null, false, zero and what is empty. -/
def isTrue : Json → Bool
  | null => false
  | bool b => b
  | int n => n != 0
  | float x => x != 0
  | str s => !s.isEmpty
  | arr items => !items.isEmpty
  | obj fields => !fields.isEmpty

/-- The kind of a value as a message names it. -/
def kindName : Json → String
  | null => "NoneType"
  | bool _ => "bool"
  | int _ => "int"
  | float _ => "float"
  | str _ => "str"
  | arr _ => "list"
  | obj _ => "dict"

/-- A value is null. -/
def isNull : Json → Bool
  | null => true
  | _ => false

/-- The exact value of a number as a quotient; truth values count as zero and one. -/
def quotient? : Json → Option (Int × Nat)
  | bool b => some (if b then 1 else 0, 1)
  | int n => some (n, 1)
  | float x =>
    (Decimal.parts? x).map fun p =>
      let (n, d) := Decimal.scaleTwo p.mantissa 1 p.exponent
      (if p.negative then -(n : Int) else n, d)
  | _ => none

/-- Two numbers have the same value; an infinity equals itself, and what is no number equals nothing. -/
def sameNumber (a b : Json) : Bool :=
  match a.quotient?, b.quotient? with
  | some (n, d), some (n', d') => n * d' == n' * d
  | none, none => match a, b with
    | float x, float y => x == y
    | _, _ => false
  | _, _ => false

mutual
/-- Equality of values: numbers by value, objects without regard to the order of their fields. -/
def same : Json → Json → Bool
  | null, null => true
  | str s, str t => s == t
  | arr xs, arr ys => sameItems xs ys
  | obj fs, obj gs => fs.length == gs.length && sameFields fs gs
  | a@(bool _), b => a.sameNumber b
  | a@(int _), b => a.sameNumber b
  | a@(float _), b => a.sameNumber b
  | _, _ => false

/-- Equality of lists of values, item by item. -/
def sameItems : List Json → List Json → Bool
  | [], [] => true
  | x :: xs, y :: ys => same x y && sameItems xs ys
  | _, _ => false

/-- Every field of the first list has an equal field in the second. -/
def sameFields : List (String × Json) → List (String × Json) → Bool
  | [], _ => true
  | (k, v) :: rest, gs =>
    (match lookup k gs with
      | some w => same v w
      | none => false) && sameFields rest gs
end

/-- An array of texts. -/
def ofStrings (xs : List String) : Json := arr (xs.map str)

/-- A value or null. -/
def ofOption {α : Type} (f : α → Json) : Option α → Json
  | none => null
  | some a => f a

end Json

end Shelfmark
