/-!
# Integers as single-precision words

Exact conversions between signed 32-bit integers and the bit patterns of single-precision
floating-point numbers.  An integer goes to the nearest representable number, a tie to the one
with an even significand.  A floating-point number loses its fraction, saturates at the ends of
the integer range, and counts as zero when it is not a number.
-/

namespace ActionStream.Binary32

/-- A number of units of `2 ^ shift` next to `magnitude`: the nearest, and of two equally near ones
the even one. -/
def roundedQuotient (magnitude shift : Nat) : Nat :=
  let quotient := magnitude / Nat.pow 2 shift
  let excess := magnitude % Nat.pow 2 shift
  if Nat.pow 2 shift < 2 * excess ∨ (Nat.pow 2 shift = 2 * excess ∧ quotient % 2 = 1) then
    quotient + 1
  else quotient

/-- The exponent and fraction fields of the number nearest to a natural number below `2 ^ 127`.
A significand that rounds up to the next power of two carries into the exponent. -/
def magnitudeBits (magnitude : Nat) : Nat :=
  if magnitude = 0 then 0
  else
    let exponent := magnitude.log2
    let significand :=
      if exponent ≤ 23 then magnitude * Nat.pow 2 (23 - exponent)
      else roundedQuotient magnitude (exponent - 23)
    (exponent + 126) * Nat.pow 2 23 + significand

/-- The word of the number nearest to an integer. -/
def ofInt (value : Int32) : UInt32 :=
  let integer := value.toInt
  if integer < 0 then UInt32.ofNat (Nat.pow 2 31 + magnitudeBits integer.natAbs)
  else UInt32.ofNat (magnitudeBits integer.natAbs)

def exponentField (word : UInt32) : Nat :=
  word.toNat / Nat.pow 2 23 % 256

def fractionField (word : UInt32) : Nat :=
  word.toNat % Nat.pow 2 23

def isNegative (word : UInt32) : Bool :=
  Nat.pow 2 31 ≤ word.toNat

/-- The magnitude of a word without its fraction, when it is below `2 ^ 31`. -/
def truncatedMagnitude (exponent fraction : Nat) : Nat :=
  if exponent < 127 then 0
  else if exponent < 150 then (Nat.pow 2 23 + fraction) / Nat.pow 2 (150 - exponent)
  else (Nat.pow 2 23 + fraction) * Nat.pow 2 (exponent - 150)

/-- The integer of a word: truncated, saturated, and zero for what is not a number. -/
def toInt (word : UInt32) : Int32 :=
  let exponent := exponentField word
  let fraction := fractionField word
  if exponent = 255 ∧ fraction ≠ 0 then 0
  else if exponent < 158 then
    let magnitude : Int := truncatedMagnitude exponent fraction
    Int32.ofInt (if isNegative word then -magnitude else magnitude)
  else if isNegative word then Int32.ofInt (-2147483648)
  else Int32.ofInt 2147483647

end ActionStream.Binary32
