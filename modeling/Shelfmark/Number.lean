import Shelfmark.Json.Bounds

/-!
# Numbers

Numbers as records and settings give them: whole numbers are exact and kept apart from doubles.  They are compared by
value.
-/

namespace Shelfmark

/-- A whole number or a double. -/
inductive Number
  | int (n : Int)
  | real (x : Float)
  deriving Inhabited

namespace Number

/-- A whole number that fits into 64 bits with a sign. -/
def fitsWord (n : Int) : Bool := -9223372036854775808 ≤ n && n ≤ 9223372036854775807

/-- A number that a column of a table can hold. -/
def fitsColumn : Number → Bool
  | int n => fitsWord n
  | real _ => true

/-- The number as a JSON value. -/
def toJson : Number → Json
  | int n => .int n
  | real x => .float x

/-- The number that a JSON value is. -/
def ofJson? : Json → Option Number
  | .int n => some (int n)
  | .float x => some (real x)
  | _ => none

/-- The nearest double. -/
def toFloat : Number → Float
  | int n => Decimal.ofInt n
  | real x => x

/-- A whole number for which there is no double. -/
def isBeyondDoubles : Number → Bool
  | int n => (Decimal.ofInt n).isInf
  | real _ => false

/-- The text of a number. -/
def text (n : Number) : String := n.toJson.spelling

/-- A whole number with too many digits is not spelled out. -/
def checkText (n : Number) : Except Fault Unit := n.toJson.checkBounds 0

/-- Less than, by exact value; infinities lie at the ends and what is no number stands in no order. -/
def lt (a b : Number) : Bool :=
  match a.toJson.quotient?, b.toJson.quotient? with
  | some (n, d), some (n', d') => n * d' < n' * d
  | _, _ => a.toFloat < b.toFloat

/-- Not greater than, by exact value; what is no number stands in no order. -/
def le (a b : Number) : Bool :=
  match a.toJson.quotient?, b.toJson.quotient? with
  | some (n, d), some (n', d') => n * d' ≤ n' * d
  | _, _ => a.toFloat ≤ b.toFloat

/-- Zero, of either kind. -/
def isZero : Number → Bool
  | int n => n == 0
  | real x => x == 0

/-- The same value. -/
def same (a b : Number) : Bool := a.toJson.same b.toJson

end Number

end Shelfmark
