/-!
# Scalars

The numbers that scores are made of.  Scores are computed with doubles, but what is said about them may be said of any
numbers with the same operations.

* `Scalar`: sums, differences, products, quotients and an order.
* `AnalyticScalar`: also square roots and logarithms.
-/

namespace Shelfmark

/-- Numbers that can be added, multiplied, divided and compared. -/
class Scalar (α : Type) extends Add α, Sub α, Mul α, Div α where
  /-- The quotient of two natural numbers. -/
  ratio : Nat → Nat → α
  /-- Not greater than. -/
  le : α → α → Bool

/-- Numbers that also have square roots and logarithms. -/
class AnalyticScalar (α : Type) extends Scalar α where
  sqrt : α → α
  /-- The natural logarithm. -/
  log : α → α

namespace Scalar

variable {α : Type} [Scalar α]

/-- Zero. -/
def zero : α := ratio 0 1

/-- One. -/
def one : α := ratio 1 1

/-- Less than. -/
def lt (a b : α) : Bool := !le b a

/-- Neither above nor below zero. -/
def isZero (a : α) : Bool := le a zero && le zero a

/-- The sum of some numbers, from left to right. -/
def sum (xs : List α) : α := xs.foldl (· + ·) zero

/-- The highest first; members with the same score stay as they were. -/
def descending {β : Type} (score : β → α) (xs : List β) : List β := xs.mergeSort fun a b => le (score b) (score a)

end Scalar

instance : AnalyticScalar Float where
  ratio n d := Float.ofNat n / Float.ofNat d
  le a b := a ≤ b
  sqrt := Float.sqrt
  log := Float.log

/-- The first members of a list: as many as a limit says, or all but as many as a negative limit says. -/
def upTo {β : Type} (limit : Int) (xs : List β) : List β :=
  if 0 ≤ limit then xs.take limit.toNat else xs.take (xs.length - limit.natAbs)

end Shelfmark
