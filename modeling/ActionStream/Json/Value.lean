import ActionStream.Text.Hex
/-!
# JSON values

The values of the interchange format.  A value that has been read from a text keeps how far it was
readable: a list or an object whose text breaks off is not closed, and what cannot be read at all
is broken.  A string that holds an escape for half of a surrogate pair is no text, but it may stand
where nothing looks at it.

Values are written in a compact form without blanks and in an indented form.
-/

namespace ActionStream.Json

/-- A JSON value, as far as it is readable.  Numbers keep their spelling, objects the order of
their members; the name of a member is missing if it is no text. -/
inductive Value where
  | null
  | boolean (value : Bool)
  | number (literal : String)
  | text (value : String)
  /-- A string with an escape for half of a surrogate pair. -/
  | looseText
  | list (items : List Value) (closed : Bool)
  | object (members : List (Option String × Value)) (closed : Bool)
  /-- Nothing readable. -/
  | broken
  deriving Inhabited, Repr

namespace Value

def integer (value : Int) : Value :=
  .number (toString value)

def listOf (items : List Value) : Value :=
  .list items true

def objectOf (members : List (String × Value)) : Value :=
  .object (members.map fun (name, value) => (some name, value)) true

end Value

def escapeCharacter (character : Char) : List Char :=
  if character = '"' then ['\\', '"']
  else if character = '\\' then ['\\', '\\']
  else if character = '\x08' then ['\\', 'b']
  else if character = '\x0C' then ['\\', 'f']
  else if character = '\n' then ['\\', 'n']
  else if character = '\r' then ['\\', 'r']
  else if character = '\t' then ['\\', 't']
  else if character.toNat < 0x20 then
    ['\\', 'u', '0', '0'] ++ Text.hexOctet (UInt8.ofNat character.toNat)
  else [character]

def writtenText (text : String) : String :=
  String.ofList ('"' :: text.toList.flatMap escapeCharacter ++ ['"'])

def writtenName (name : Option String) : String :=
  writtenText (name.getD "")

mutual

/-- The compact form of a value, after the text so far. -/
def compactOnto (written : String) : Value → String
  | .null => written ++ "null"
  | .boolean value => written ++ (if value then "true" else "false")
  | .number literal => written ++ literal
  | .text value => written ++ writtenText value
  | .looseText => written
  | .list items _ => compactItems (written ++ "[") "" items ++ "]"
  | .object members _ => compactMembers (written ++ "\x7b") "" members ++ "\x7d"
  | .broken => written

def compactItems (written separator : String) : List Value → String
  | [] => written
  | first :: rest => compactItems (compactOnto (written ++ separator) first) "," rest

def compactMembers (written separator : String) : List (Option String × Value) → String
  | [] => written
  | (name, value) :: rest =>
    compactMembers (compactOnto (written ++ separator ++ writtenName name ++ ":") value) "," rest

end

def compact (value : Value) : String :=
  compactOnto "" value

def lineBreak (depth : Nat) : String :=
  "\n".pushn ' ' (2 * depth)

mutual

def indentedOnto (depth : Nat) (written : String) : Value → String
  | .null => written ++ "null"
  | .boolean value => written ++ (if value then "true" else "false")
  | .number literal => written ++ literal
  | .text value => written ++ writtenText value
  | .looseText => written
  | .list [] _ => written ++ "[]"
  | .list (first :: rest) _ =>
    indentedItems (depth + 1)
      (indentedOnto (depth + 1) (written ++ "[" ++ lineBreak (depth + 1)) first) rest ++
      lineBreak depth ++ "]"
  | .object [] _ => written ++ "\x7b\x7d"
  | .object ((name, value) :: rest) _ =>
    indentedMembers (depth + 1)
      (indentedOnto (depth + 1)
        (written ++ "\x7b" ++ lineBreak (depth + 1) ++ writtenName name ++ ": ") value) rest ++
      lineBreak depth ++ "\x7d"
  | .broken => written

def indentedItems (depth : Nat) (written : String) : List Value → String
  | [] => written
  | first :: rest =>
    indentedItems depth (indentedOnto depth (written ++ "," ++ lineBreak depth) first) rest

def indentedMembers (depth : Nat) (written : String) : List (Option String × Value) → String
  | [] => written
  | (name, value) :: rest =>
    indentedMembers depth
      (indentedOnto depth
        (written ++ "," ++ lineBreak depth ++ writtenName name ++ ": ") value) rest

end

def indented (value : Value) : String :=
  indentedOnto 0 "" value

end ActionStream.Json
