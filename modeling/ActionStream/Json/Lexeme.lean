/-!
# The lexemes of a JSON text

A text is a sequence of punctuation marks, strings, numbers and words with blanks between them.
The sequence ends where the text does, or with a fault at the first place that begins no lexeme.
-/

namespace ActionStream.Json

inductive Lexeme where
  | openList
  | closeList
  | openObject
  | closeObject
  | comma
  | colon
  | null
  | boolean (value : Bool)
  | number (literal : String)
  | text (value : String)
  /-- A string with an escape for half of a surrogate pair. -/
  | looseText
  /-- No lexeme begins here. -/
  | fault
  deriving DecidableEq, Repr

namespace Lexeme

def isBlank (character : Char) : Bool :=
  character == ' ' || character == '\n' || character == '\t' || character == '\r'

def hexValue? (character : Char) : Option Nat :=
  let code := character.toNat
  if 0x30 ≤ code ∧ code ≤ 0x39 then some (code - 0x30)
  else if 0x61 ≤ code ∧ code ≤ 0x66 then some (code - 0x61 + 10)
  else if 0x41 ≤ code ∧ code ≤ 0x46 then some (code - 0x41 + 10)
  else none

def unit? (first second third fourth : Char) : Option Nat := do
  let a ← hexValue? first
  let b ← hexValue? second
  let c ← hexValue? third
  let d ← hexValue? fourth
  return ((a * 16 + b) * 16 + c) * 16 + d

def isHighHalf (unit : Nat) : Bool :=
  0xD800 ≤ unit && unit < 0xDC00

def isLowHalf (unit : Nat) : Bool :=
  0xDC00 ≤ unit && unit < 0xE000

def ofHalves (high low : Nat) : Char :=
  Char.ofNat (0x10000 + (high - 0xD800) * 0x400 + (low - 0xDC00))

def shortEscape? (letter : Char) : Option Char :=
  if letter = '"' ∨ letter = '\\' ∨ letter = '/' then some letter
  else if letter = 'b' then some '\x08'
  else if letter = 'f' then some '\x0C'
  else if letter = 'n' then some '\n'
  else if letter = 'r' then some '\r'
  else if letter = 't' then some '\t'
  else none

/-- The string whose first quotation mark and the characters found so far are read, with the
characters that follow it.  Control characters have to be escaped. -/
def string (found : List Char) (loose : Bool) : List Char → Lexeme × List Char
  | [] => (fault, [])
  | '"' :: rest => (if loose then looseText else text (String.ofList found.reverse), rest)
  | '\\' :: 'u' :: first :: second :: third :: fourth :: rest =>
    match unit? first second third fourth with
    | none => (fault, [])
    | some unit =>
      if isHighHalf unit then
        match rest with
        | '\\' :: 'u' :: fifth :: sixth :: seventh :: eighth :: after =>
          match unit? fifth sixth seventh eighth with
          | none => (fault, [])
          | some next =>
            if isLowHalf next then string (ofHalves unit next :: found) loose after
            else string found true ('\\' :: 'u' :: fifth :: sixth :: seventh :: eighth :: after)
        | rest => string found true rest
      else if isLowHalf unit then string found true rest
      else string (Char.ofNat unit :: found) loose rest
  | '\\' :: letter :: rest =>
    match shortEscape? letter with
    | none => (fault, [])
    | some character => string (character :: found) loose rest
  | character :: rest =>
    if character.toNat < 0x20 ∨ character = '\\' then (fault, [])
    else string (character :: found) loose rest

/-- The digits at the start, which may not be missing, and the characters that follow them. -/
def digits? (characters : List Char) : Option (List Char × List Char) :=
  match characters.span Char.isDigit with
  | ([], _) => none
  | (digits, rest) => some (digits, rest)

def fraction? : List Char → Option (List Char × List Char)
  | '.' :: rest => (digits? rest).map fun (digits, rest) => ('.' :: digits, rest)
  | rest => some ([], rest)

def exponentSign : List Char → List Char × List Char
  | '+' :: rest => (['+'], rest)
  | '-' :: rest => (['-'], rest)
  | rest => ([], rest)

def exponent? : List Char → Option (List Char × List Char)
  | first :: rest =>
    if first = 'e' ∨ first = 'E' then
      let (sign, rest) := exponentSign rest
      (digits? rest).map fun (digits, rest) => (first :: sign ++ digits, rest)
    else some ([], first :: rest)
  | [] => some ([], [])

/-- The digits before the fraction: a zero stands alone. -/
def whole? (characters : List Char) : Option (List Char × List Char) :=
  match digits? characters with
  | some ('0' :: _ :: _, _) => none
  | result => result

def unsigned? (characters : List Char) : Option (List Char × List Char) := do
  let (whole, rest) ← whole? characters
  let (fraction, rest) ← fraction? rest
  let (exponent, rest) ← exponent? rest
  return (whole ++ fraction ++ exponent, rest)

/-- The number at the start, after the sign that is already read. -/
def signed (sign characters : List Char) : Lexeme × List Char :=
  match unsigned? characters with
  | some (literal, rest) => (number (String.ofList (sign ++ literal)), rest)
  | none => (fault, [])

/-- The lexeme that begins with the first character, and the characters that follow it. -/
def next (first : Char) (rest : List Char) : Lexeme × List Char :=
  match first, rest with
  | '[', rest => (openList, rest)
  | ']', rest => (closeList, rest)
  | '\x7b', rest => (openObject, rest)
  | '\x7d', rest => (closeObject, rest)
  | ',', rest => (comma, rest)
  | ':', rest => (colon, rest)
  | '"', rest => string [] false rest
  | 'n', 'u' :: 'l' :: 'l' :: rest => (null, rest)
  | 't', 'r' :: 'u' :: 'e' :: rest => (boolean true, rest)
  | 'f', 'a' :: 'l' :: 's' :: 'e' :: rest => (boolean false, rest)
  | '-', rest => signed ['-'] rest
  | first, rest => signed [] (first :: rest)

/-- The lexemes of a text, in reverse order before those found so far.  Every round takes at least
one character, so the length of the text bounds the rounds. -/
def scan (found : List Lexeme) : Nat → List Char → List Lexeme
  | 0, _ => found
  | rounds + 1, characters =>
    match characters.dropWhile isBlank with
    | [] => found
    | first :: rest =>
      match next first rest with
      | (fault, _) => fault :: found
      | (lexeme, rest) => scan (lexeme :: found) rounds rest

end Lexeme

/-- The lexemes of a text, up to the first fault. -/
def lexemes (text : List Char) : List Lexeme :=
  (Lexeme.scan [] text.length text).reverse

end ActionStream.Json
