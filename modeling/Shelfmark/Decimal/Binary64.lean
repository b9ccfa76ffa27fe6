/-!
# Exact values of doubles

A finite double is `± mantissa * 2 ^ exponent`.  This module takes a double apart into that form and finds the
double nearest to a quotient of naturals, so that every conversion between doubles, integers and decimal text is a
rounding of exact numbers.

* `roundDiv`: the integer nearest to a quotient, a half going to the even neighbour.
* `parts?`: the sign, mantissa and exponent of a finite double.
* `ofQuotient`: the double nearest to a quotient.
-/

namespace Shelfmark.Decimal

/-- The integer nearest to `num / den`; a half goes to the even neighbour. -/
def roundDiv (num den : Nat) : Nat :=
  let q := num / den
  let r := num % den
  if den < 2 * r || (2 * r == den && q % 2 == 1) then q + 1 else q

/-- The quotient `num * 2 ^ shift / den` as a pair of naturals, for a shift of either sign. -/
def scaleTwo (num den : Nat) (shift : Int) : Nat × Nat :=
  if 0 ≤ shift then (num * Nat.pow 2 shift.toNat, den) else (num, den * Nat.pow 2 (-shift).toNat)

/-- A finite double: `± mantissa * 2 ^ exponent`. -/
structure Parts where
  negative : Bool
  mantissa : Nat
  exponent : Int
  deriving Repr, DecidableEq

/-- The sign, mantissa and exponent of a finite double, and nothing for an infinity or no number. -/
def parts? (x : Float) : Option Parts :=
  let bits := x.toBits.toNat
  let negative := bits / Nat.pow 2 63 == 1
  let biased : Nat := bits / Nat.pow 2 52 % 2048
  let fraction : Nat := bits % Nat.pow 2 52
  if biased == 2047 then none
  else if biased == 0 then some ⟨negative, fraction, -1074⟩
  else some ⟨negative, fraction + Nat.pow 2 52, (biased : Int) - 1075⟩

/-- The bits of the double nearest to the positive quotient `num / den`; a half goes to the even mantissa, and a
quotient beyond the largest double becomes infinity. -/
def magnitudeBits (num den : Nat) : Nat :=
  if num == 0 then 0
  else
    let guess : Int := (num.log2 : Int) - (den.log2 : Int) - 53
    let (n, d) := scaleTwo num den (-guess)
    let exponent := max (-1074) (if n / d < Nat.pow 2 53 then guess else guess + 1)
    let (n, d) := scaleTwo num den (-exponent)
    let mantissa := roundDiv n d
    if mantissa < Nat.pow 2 52 then mantissa
    else min ((exponent + 1075).toNat * Nat.pow 2 52 + (mantissa - Nat.pow 2 52)) (2047 * Nat.pow 2 52)

/-- The double nearest to `± num / den`. -/
def ofQuotient (negative : Bool) (num den : Nat) : Float :=
  Float.ofBits (UInt64.ofNat (magnitudeBits num den + if negative then Nat.pow 2 63 else 0))

/-- The double nearest to an integer divided by a positive natural. -/
def ofIntQuotient (num : Int) (den : Nat) : Float := ofQuotient (num < 0) num.natAbs den

/-- The double nearest to an integer. -/
def ofInt (n : Int) : Float := ofIntQuotient n 1

/-- The integer part of a finite double, toward zero. -/
def truncate? (x : Float) : Option Int :=
  (parts? x).map fun p =>
    let (n, d) := scaleTwo p.mantissa 1 p.exponent
    if p.negative then -((n / d : Nat) : Int) else ((n / d : Nat) : Int)

/-- The integer nearest to a finite double times `scale`, rounded once; a half goes to the even neighbour. -/
def scaleRound? (x : Float) (scale : Nat) : Option Int :=
  (parts? x).map fun p =>
    let (n, d) := scaleTwo (p.mantissa * scale) 1 p.exponent
    if p.negative then -(roundDiv n d : Int) else (roundDiv n d : Int)

end Shelfmark.Decimal
