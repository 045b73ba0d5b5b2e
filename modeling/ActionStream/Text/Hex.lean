/-!
# Hexadecimal digits

Numbers in base sixteen, in either letter case and optionally padded with zeros on the left.
Both the listing and the error messages use them.
-/

namespace ActionStream.Text

inductive LetterCase where
  | lower
  | upper
  deriving DecidableEq, Repr

/-- The hexadecimal digits of a number, without leading zeros; zero has one digit. -/
def hexDigits : LetterCase → Nat → List Char
  | .lower, number => Nat.toDigits 16 number
  | .upper, number => (Nat.toDigits 16 number).map Char.toUpper

/-- The hexadecimal digits of a number, padded with zeros to at least the given width. -/
def hexPadded (letterCase : LetterCase) (width number : Nat) : String :=
  let digits := hexDigits letterCase number
  String.ofList (List.replicate (width - digits.length) '0' ++ digits)

def hexOctet (octet : UInt8) : List Char :=
  [Nat.digitChar (octet.toNat / 16), Nat.digitChar (octet.toNat % 16)]

end ActionStream.Text
