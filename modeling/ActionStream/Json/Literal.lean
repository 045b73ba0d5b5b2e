import ActionStream.Number.Decimal
/-!
# The numbers of a JSON text

A number keeps its spelling until its meaning is asked for: an integer has neither fraction nor
exponent, while any spelling is a double-precision number unless it is too large for one.  Of a
double-precision number the leading digits count that fit a 64-bit word; they are scaled in
floating-point arithmetic.
-/

namespace ActionStream.Json

def digitsValue (digits : List Char) : Nat :=
  digits.foldl (fun value digit => value * 10 + (digit.toNat - 0x30)) 0

def splitSign : List Char → Bool × List Char
  | '-' :: rest => (true, rest)
  | rest => (false, rest)

/-- The integer that a spelling stands for; a zero with a sign is no integer. -/
def integer? (literal : String) : Option Int :=
  let (negative, magnitude) := splitSign literal.toList
  if magnitude.all Char.isDigit then
    let value := digitsValue magnitude
    if negative then (if value = 0 then none else some (-value)) else some value
  else none

/-- An exponent whose digits are so many that no number of digits makes up for it. -/
def vastExponent : Nat := 1000000000

/-- The exponent that a list of digits stands for, at most the vast one. -/
def exponentValue (digits : List Char) : Nat :=
  let significant := digits.dropWhile (· == '0')
  if 9 < significant.length then vastExponent else digitsValue significant

def signedExponent : List Char → Int
  | '-' :: digits => -(exponentValue digits : Int)
  | '+' :: digits => exponentValue digits
  | digits => exponentValue digits

def fractionAndExponent (characters : List Char) : List Char × Int :=
  let (fraction, rest) :=
    match characters with
    | '.' :: rest => rest.span Char.isDigit
    | rest => ([], rest)
  (fraction, signedExponent rest.tail)

/-- Whether a number with a further digit behind it still fits a 64-bit word. -/
def fitsDigit (leading digit : Nat) : Bool :=
  leading * 10 + digit < Nat.pow 2 64

/-- The number that the leading digits make up as long as they fit, behind those read so far, and
how many digits before the point are left out. -/
def leadingWhole (leading : Nat) : List Char → Nat × Nat
  | [] => (leading, 0)
  | digit :: rest =>
    let value := digit.toNat - 0x30
    if fitsDigit leading value then leadingWhole (leading * 10 + value) rest
    else (leading, rest.length + 1)

/-- The number that the leading digits make up as long as they fit, behind those read so far, and
how many digits after the point it takes in, `places` of them before. -/
def leadingFraction (leading places : Nat) : List Char → Nat × Nat
  | [] => (leading, places)
  | digit :: rest =>
    let value := digit.toNat - 0x30
    if fitsDigit leading value then leadingFraction (leading * 10 + value) (places + 1) rest
    else (leading, places)

/-- The double-precision number that a spelling stands for; none if it is too large. -/
def double? (literal : String) : Option Binary64 :=
  let (negative, magnitude) := splitSign literal.toList
  let (whole, rest) := magnitude.span Char.isDigit
  let (fraction, exponent) := fractionAndExponent rest
  let (leading, skipped) := leadingWhole 0 whole
  let (leading, places) := leadingFraction leading 0 fraction
  Binary64.ofScaled? negative leading (exponent + skipped - places)

/-- Numbers in texts are positional up to sixteen digits before the point and four zeros after
it. -/
def numbers : Decimal.Layout where
  leastPlain := -4
  greatestPlain := 16
  positiveExponentMark := "+"
  tie := .toEven

end ActionStream.Json
