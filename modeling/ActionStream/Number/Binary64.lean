/-!
# Double-precision numbers

A double-precision number is its bit pattern, so that payloads and the sign of zero are kept.
This module takes a pattern apart into sign, significand and exponent, rounds products and quotients
to the nearest number, and scales an integer by a power of ten in this arithmetic.
-/

namespace ActionStream

/-- A double-precision floating-point number, as its bit pattern. -/
structure Binary64 where
  bits : UInt64
  deriving DecidableEq, Repr, Inhabited

namespace Binary64

def isNegative (number : Binary64) : Bool :=
  Nat.pow 2 63 ≤ number.bits.toNat

def exponentField (number : Binary64) : Nat :=
  number.bits.toNat / Nat.pow 2 52 % 2048

def fractionField (number : Binary64) : Nat :=
  number.bits.toNat % Nat.pow 2 52

def isFinite (number : Binary64) : Bool :=
  number.exponentField != 2047

def isNaN (number : Binary64) : Bool :=
  number.exponentField == 2047 && number.fractionField != 0

/-- The integer significand of a finite number. -/
def significand (number : Binary64) : Nat :=
  if number.exponentField = 0 then number.fractionField else Nat.pow 2 52 + number.fractionField

/-- The power of two by which the integer significand of a finite number counts. -/
def exponent (number : Binary64) : Int :=
  if number.exponentField = 0 then -1074 else (number.exponentField : Int) - 1075

def high (number : Binary64) : UInt32 :=
  UInt32.ofNat (number.bits.toNat / Nat.pow 2 32)

def low (number : Binary64) : UInt32 :=
  UInt32.ofNat number.bits.toNat

def ofWords (high low : UInt32) : Binary64 :=
  ⟨UInt64.ofNat (high.toNat * Nat.pow 2 32 + low.toNat)⟩

/-- The quotient rounded to the nearest integer, a tie to the even one. -/
def roundedQuotient (numerator denominator : Nat) : Nat :=
  let quotient := numerator / denominator
  let excess := numerator % denominator
  if denominator < 2 * excess ∨ (denominator = 2 * excess ∧ quotient % 2 = 1) then quotient + 1
  else quotient

/-- A fraction as a number of units of `2 ^ exponent`, rounded. -/
def roundedAt (numerator denominator : Nat) (exponent : Int) : Nat :=
  if 0 ≤ exponent then roundedQuotient numerator (denominator * Nat.pow 2 exponent.toNat)
  else roundedQuotient (numerator * Nat.pow 2 (-exponent).toNat) denominator

/-- Whether a fraction is at least `2 ^ exponent`. -/
def reachesPower (numerator denominator : Nat) (exponent : Int) : Bool :=
  if 0 ≤ exponent then denominator * Nat.pow 2 exponent.toNat ≤ numerator
  else denominator ≤ numerator * Nat.pow 2 (-exponent).toNat

/-- The magnitude bits of the number nearest to a positive fraction; `none` when that would be
beyond the finite numbers. -/
def magnitudeOfFraction (numerator denominator : Nat) : Option Nat :=
  let guess : Int := (numerator.log2 : Int) - denominator.log2
  let binaryExponent := if reachesPower numerator denominator guess then guess else guess - 1
  let exponent := max (binaryExponent - 52) (-1074)
  let bits := (exponent + 1074).toNat * Nat.pow 2 52 + roundedAt numerator denominator exponent
  if bits < 2047 * Nat.pow 2 52 then some bits else none

/-- The number nearest to `numerator / denominator * 2 ^ exponent`; `none` when that is beyond the
finite numbers. -/
def nearest? (numerator denominator : Nat) (exponent : Int) : Option Binary64 :=
  if numerator = 0 then some ⟨0⟩
  else
    let magnitude :=
      if 0 ≤ exponent then magnitudeOfFraction (numerator * Nat.pow 2 exponent.toNat) denominator
      else magnitudeOfFraction numerator (denominator * Nat.pow 2 (-exponent).toNat)
    magnitude.map fun bits => ⟨UInt64.ofNat bits⟩

/-- The rounded product of two finite numbers that are not negative. -/
def times? (first second : Binary64) : Option Binary64 :=
  nearest? (first.significand * second.significand) 1 (first.exponent + second.exponent)

/-- The rounded quotient of two finite numbers that are not negative, the second one not zero. -/
def over? (first second : Binary64) : Option Binary64 :=
  nearest? first.significand second.significand (first.exponent - second.exponent)

/-- The power of ten up to which powers are finite numbers. -/
def greatestPower : Nat := 308

/-- A number that is not negative, times a power of ten.  The rounded number is multiplied with or
divided by the rounded power, so the result may be a neighbour of the nearest number.  A power that
is too small to have an inverse is applied in steps; three steps bring every 64-bit integer to
zero. -/
def scaledWithin (number : Binary64) (power : Int) : Nat → Option Binary64
  | 0 => some ⟨0⟩
  | rounds + 1 =>
    if power.natAbs ≤ greatestPower then do
      let factor ← nearest? (Nat.pow 10 power.natAbs) 1 0
      if 0 ≤ power then number.times? factor else number.over? factor
    else if number.significand = 0 then some ⟨0⟩
    else if 0 ≤ power then none
    else do
      let factor ← nearest? (Nat.pow 10 greatestPower) 1 0
      let smaller ← number.over? factor
      smaller.scaledWithin (power + greatestPower) rounds

/-- The number that floating-point arithmetic gives for `± digits * 10 ^ power`, where the digits
fit 64 bits; `none` when that is beyond the finite numbers. -/
def ofScaled? (negative : Bool) (digits : Nat) (power : Int) : Option Binary64 := do
  let rounded ← nearest? digits 1 0
  let scaled ← rounded.scaledWithin power 3
  return ⟨if negative then UInt64.ofNat (Nat.pow 2 63 + scaled.bits.toNat) else scaled.bits⟩

end Binary64

end ActionStream
