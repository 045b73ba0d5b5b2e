import ActionStream.Text.Hex
import ActionStream.Text.Visible
/-!
# Quoted text

A text is quoted by enclosing it in a delimiter and writing the delimiter, the backslash, the
common control characters and every invisible character as an escape.  Invisible characters are
written as their code point in lower-case hexadecimal between braces.
-/

namespace ActionStream.Text

/-- The written form of one character inside quotation marks of the given kind. -/
def escapeCharacter (delimiter character : Char) : List Char :=
  if character = '\x00' then ['\\', '0']
  else if character = '\t' then ['\\', 't']
  else if character = '\n' then ['\\', 'n']
  else if character = '\r' then ['\\', 'r']
  else if character = '\\' then ['\\', '\\']
  else if character = delimiter then ['\\', delimiter]
  else if isVisible character then [character]
  else ['\\', 'u', '\x7b'] ++ hexDigits .lower character.toNat ++ ['\x7d']

/-- A text between double quotation marks. -/
def quoted (text : String) : String :=
  String.ofList ('"' :: text.toList.flatMap (escapeCharacter '"') ++ ['"'])

def quotedCharacter (character : Char) : String :=
  String.ofList ('\'' :: escapeCharacter '\'' character ++ ['\''])

end ActionStream.Text
