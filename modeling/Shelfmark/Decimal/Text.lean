import Shelfmark.Decimal.Binary64

/-!
# Decimal text of doubles

* `shortest`: the fewest digits that read back as the same double, written positionally for moderate exponents.
-/

namespace Shelfmark.Decimal

/-- The digits of a natural number, padded on the left with zeros to a width. -/
def padDigits (width n : Nat) : List Char :=
  let ds := Nat.toDigits 10 n
  List.replicate (width - ds.length) '0' ++ ds

/-- Digits and a decimal exponent: the number is `0.digits * 10 ^ point`. -/
structure Digits where
  digits : List Char
  point : Int
  deriving Repr, DecidableEq

/-- The quotient `num * 10 ^ shift / den` as a pair of naturals, for a shift of either sign. -/
def scaleTen (num den : Nat) (shift : Int) : Nat × Nat :=
  if 0 ≤ shift then (num * Nat.pow 10 shift.toNat, den) else (num, den * Nat.pow 10 (-shift).toNat)

/-- The least `p` near `guess` with `num / den < 10 ^ p`. -/
def decimalPoint (num den : Nat) : Nat → Int → Int
  | 0, guess => guess
  | fuel + 1, guess =>
    let (n, d) := scaleTen num den (-guess)
    if d ≤ n then decimalPoint num den fuel (guess + 1)
    else
      let (n, d) := scaleTen num den (1 - guess)
      if n < d then decimalPoint num den fuel (guess - 1) else guess

/-- The reals that round to a positive double: `(num - below) / den` to `(num + above) / den`, the ends included
when `closed`. -/
structure Interval where
  num : Nat
  den : Nat
  below : Nat
  above : Nat
  closed : Bool

/-- The interval of reals that round to the double with a given positive mantissa and exponent.  Everything is
scaled by four, so that half of a step, and the quarter step below a power of two, are whole numbers. -/
def Interval.of (mantissa : Nat) (exponent : Int) : Interval :=
  let (n, d) := scaleTwo (4 * mantissa) 4 exponent
  let (unit, _) := scaleTwo 1 4 exponent
  let below := if mantissa == Nat.pow 2 52 && -1074 < exponent then unit else 2 * unit
  ⟨n, d, below, 2 * unit, mantissa % 2 == 0⟩

/-- The point `k * 10 ^ (point - count)` of a decimal grid lies in the interval. -/
def Interval.holds (i : Interval) (k : Nat) (shift : Int) : Bool :=
  let (kn, kd) := scaleTen k 1 shift
  let left := kn * i.den
  let low := (i.num - i.below) * kd
  let high := (i.num + i.above) * kd
  if i.closed then low ≤ left && left ≤ high else low < left && left < high

/-- The point `k * 10 ^ (point - count)` of a decimal grid, for a `k` of `count` digits or the next power of ten. -/
def Digits.onGrid (k count : Nat) (point : Int) : Digits :=
  if k == Nat.pow 10 count then ⟨['1'], point + 1⟩ else ⟨Nat.toDigits 10 k, point⟩

/-- The shortest digits of a positive double: the first grid of one, two, … seventeen digits with a point in the
interval, and of two such points the nearer. -/
def shortestFrom (i : Interval) (point : Int) : Nat → Nat → Digits
  | 0, count =>
    let (n, d) := scaleTen i.num i.den (count - point)
    .onGrid (roundDiv n d) count point
  | fuel + 1, count =>
    let shift : Int := point - count
    let (n, d) := scaleTen i.num i.den (-shift)
    let low := n / d
    let nearest := roundDiv n d
    let other := if nearest == low then low + 1 else low
    let found :=
      if i.holds nearest shift then some nearest else if i.holds other shift then some other else none
    match found with
    | some k => .onGrid k count point
    | none => shortestFrom i point fuel (count + 1)

/-- The digits and the exponent of a positive double. -/
def shortestDigits (mantissa : Nat) (exponent : Int) : Digits :=
  let i := Interval.of mantissa exponent
  let guess : Int := ((mantissa.log2 : Int) + exponent) * 3 / 10
  shortestFrom i (decimalPoint i.num i.den 2200 guess) 16 1

/-- Drops the zeros at the end of a list of digits. -/
def dropEndZeros (ds : List Char) : List Char := (ds.reverse.dropWhile (· == '0')).reverse

/-- Digits as a numeral: positional with at least one decimal when the point lies between `-3` and `16`, and else
with an exponent of at least two digits. -/
def Digits.render (d : Digits) : String :=
  let ds := dropEndZeros d.digits
  let count := ds.length
  if -3 ≤ d.point && d.point ≤ 16 then
    if d.point ≤ 0 then "0." ++ String.ofList (List.replicate (-d.point).toNat '0' ++ ds)
    else
      let whole := d.point.toNat
      if count ≤ whole then String.ofList (ds ++ List.replicate (whole - count) '0') ++ ".0"
      else String.ofList (ds.take whole) ++ "." ++ String.ofList (ds.drop whole)
  else
    let exponent := d.point - 1
    let head := String.ofList (ds.take 1)
    let tail := if count ≤ 1 then "" else "." ++ String.ofList (ds.drop 1)
    head ++ tail ++ "e" ++ (if exponent < 0 then "-" else "+") ++
      String.ofList (padDigits 2 exponent.natAbs)

/-- The shortest numeral that reads back as the double. -/
def shortest (x : Float) : String :=
  match parts? x with
  | none => if x.isNaN then "nan" else if x < 0 then "-inf" else "inf"
  | some p =>
    let sign := if p.negative then "-" else ""
    if p.mantissa == 0 then sign ++ "0.0" else sign ++ (shortestDigits p.mantissa p.exponent).render

end Shelfmark.Decimal
