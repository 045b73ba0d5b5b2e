/-!
# White space

The characters that Unicode counts as white space, and texts without them at either end.
-/

namespace ActionStream.Text

/-- Whether Unicode counts a character as white space. -/
def isWhiteSpace (character : Char) : Bool :=
  let code := character.toNat
  (0x09 ≤ code && code ≤ 0x0D) || code == 0x20 || code == 0x85 || code == 0xA0 ||
    code == 0x1680 || (0x2000 ≤ code && code ≤ 0x200A) || code == 0x2028 || code == 0x2029 ||
    code == 0x202F || code == 0x205F || code == 0x3000

def trimmedCharacters (characters : List Char) : List Char :=
  ((characters.dropWhile isWhiteSpace).reverse.dropWhile isWhiteSpace).reverse

/-- A text without white space at its ends. -/
def trimmed (text : String) : String :=
  String.ofList (trimmedCharacters text.toList)

end ActionStream.Text
