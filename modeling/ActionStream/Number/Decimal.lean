import ActionStream.Number.Binary64
/-!
# The shortest decimal of a number

A finite number is written with the fewest significant digits that read back as the same number;
of the candidates with that many digits the nearest is taken.  A layout then says which decimals
are written in positional notation and how an exponent looks.
-/

namespace ActionStream

/-- Which of two equally near candidates is taken. -/
inductive DecimalTie where
  | toEven
  | upward
  deriving DecidableEq, Repr

/-- Significant digits without trailing zeros, to be read as `0.d₁d₂… * 10 ^ position`. -/
structure Decimal where
  digits : List Char
  position : Int
  deriving DecidableEq, Repr

namespace Decimal

/-- Compares the fraction `numerator / denominator` with `digits * 10 ^ scale`. -/
def compareFraction (numerator denominator digits : Nat) (scale : Int) : Ordering :=
  if 0 ≤ scale then compare numerator (digits * Nat.pow 10 scale.toNat * denominator)
  else compare (numerator * Nat.pow 10 (-scale).toNat) (digits * denominator)

/-- The greatest number of units of `10 ^ scale` that is at most the fraction. -/
def floorAt (scale : Int) (numerator denominator : Nat) : Nat :=
  if 0 ≤ scale then numerator / (Nat.pow 10 scale.toNat * denominator)
  else numerator * Nat.pow 10 (-scale).toNat / denominator

/-- The reals that round to a positive finite number: its value and the two ends, as fractions of
one denominator, and whether the ends belong to them. -/
structure RoundingInterval where
  least : Nat
  value : Nat
  greatest : Nat
  denominator : Nat
  closed : Bool

/-- The reals that round to the magnitude of a finite number.  The gap below a power of two is half
as wide as the gap above it. -/
def RoundingInterval.of (number : Binary64) : RoundingInterval :=
  let significand := number.significand
  let quarters := 4 * significand
  let below := if number.fractionField = 0 ∧ 1 < number.exponentField then 1 else 2
  let exponent := number.exponent - 2
  let scaled (count : Nat) := if 0 ≤ exponent then count * Nat.pow 2 exponent.toNat else count
  { least := scaled (quarters - below)
    value := scaled quarters
    greatest := scaled (quarters + 2)
    denominator := if 0 ≤ exponent then 1 else Nat.pow 2 (-exponent).toNat
    closed := significand % 2 == 0 }

def RoundingInterval.contains (interval : RoundingInterval) (digits : Nat) (scale : Int) : Bool :=
  let least := compareFraction interval.least interval.denominator digits scale
  let greatest := compareFraction interval.greatest interval.denominator digits scale
  (least == .lt || (interval.closed && least == .eq)) &&
    (greatest == .gt || (interval.closed && greatest == .eq))

/-- The position of the point of a positive fraction: the least power of ten above it.  The guess
from the lengths in binary is at most two too small. -/
def pointPosition (numerator denominator : Nat) : Int :=
  let binary : Int := (numerator.log2 : Int) - denominator.log2
  let guess := Int.fdiv ((binary - 1) * 30103) 100000
  if compareFraction numerator denominator 1 guess = .lt then guess
  else if compareFraction numerator denominator 1 (guess + 1) = .lt then guess + 1
  else guess + 2

/-- The decimal of the interval on the coarsest of the grids with `count` significant digits or
more, as a number of units and their power of ten. -/
def RoundingInterval.shortestFrom (interval : RoundingInterval) (tie : DecimalTie)
    (position : Int) (count : Nat) : Nat → Nat × Int
  | 0 => (floorAt (position - count) interval.value interval.denominator, position - count)
  | rounds + 1 =>
    let scale := position - count
    let lower := floorAt scale interval.value interval.denominator
    match interval.contains lower scale, interval.contains (lower + 1) scale with
    | true, true =>
      match compareFraction (2 * interval.value) interval.denominator (2 * lower + 1) scale with
      | .lt => (lower, scale)
      | .gt => (lower + 1, scale)
      | .eq =>
        match tie with
        | .toEven => (if lower % 2 = 0 then lower else lower + 1, scale)
        | .upward => (lower + 1, scale)
    | true, false => (lower, scale)
    | false, true => (lower + 1, scale)
    | false, false => interval.shortestFrom tie position (count + 1) rounds

/-- The shortest decimal of the magnitude of a finite number other than zero. -/
def shortest (tie : DecimalTie) (number : Binary64) : Decimal :=
  let interval := RoundingInterval.of number
  let position := pointPosition interval.value interval.denominator
  let (units, scale) := interval.shortestFrom tie position 1 17
  let digits := Nat.toDigits 10 units
  let significant := (digits.reverse.dropWhile (· == '0')).reverse
  ⟨significant, scale + digits.length⟩

structure Layout where
  /-- The least point position that is written in positional notation. -/
  leastPlain : Int
  /-- The greatest point position that is written in positional notation. -/
  greatestPlain : Int
  /-- What stands before an exponent that is not negative. -/
  positiveExponentMark : String
  tie : DecimalTie

/-- A decimal in positional notation; an integer has one zero after the point. -/
def plain (decimal : Decimal) : String :=
  let count : Int := decimal.digits.length
  if decimal.position ≤ 0 then
    "0." ++ String.ofList (List.replicate (-decimal.position).toNat '0' ++ decimal.digits)
  else if decimal.position < count then
    let (whole, fraction) := decimal.digits.splitAt decimal.position.toNat
    String.ofList (whole ++ '.' :: fraction)
  else
    String.ofList
      (decimal.digits ++ List.replicate (decimal.position - count).toNat '0' ++ ['.', '0'])

def scientific (layout : Layout) (decimal : Decimal) : String :=
  let exponent := decimal.position - 1
  let mark := if exponent < 0 then "e" else "e" ++ layout.positiveExponentMark
  let mantissa :=
    match decimal.digits with
    | first :: second :: rest => first :: '.' :: second :: rest
    | digits => digits
  String.ofList mantissa ++ mark ++ toString exponent

def text (layout : Layout) (number : Binary64) : String :=
  let sign := if number.isNegative then "-" else ""
  if number.significand = 0 then sign ++ "0.0"
  else
    let decimal := shortest layout.tie number
    if layout.leastPlain ≤ decimal.position ∧ decimal.position ≤ layout.greatestPlain then
      sign ++ decimal.plain
    else sign ++ decimal.scientific layout

end Decimal

end ActionStream
