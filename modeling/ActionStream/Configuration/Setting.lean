/-!
# Settings files

A settings file assigns values to keys, one assignment on a line, with comments after a number
sign.  A key is a bare word or a quoted text, or a path of such words.  A value is an integer in one
of four bases, a text in one of four kinds of quotation marks, a truth value, or a table with one
empty entry, which names an alternative.  A table may stretch over several lines.  A heading puts
the following keys below a path.
-/

namespace ActionStream.Settings

/-- A value that a key is given. -/
inductive Setting where
  | integer (value : Int)
  | text (value : String)
  | flag (value : Bool)
  /-- A list or a table without entries. -/
  | nothing
  /-- A table whose only entry has no entries. -/
  | named (name : String)
  deriving DecidableEq, Repr

/-- A line of a settings file: a value for a path of keys, or a heading. -/
inductive Line where
  | assignment (path : List String) (value : Setting)
  | heading (path : List String)
  deriving DecidableEq, Repr

/-- What is read, and the characters that follow it. -/
abbrev Scan (α : Type) := List Char → Option (α × List Char)

def isBlank (character : Char) : Bool :=
  character == ' ' || character == '\t'

def skipBlanks (characters : List Char) : List Char :=
  characters.dropWhile isBlank

/-- Whether a character may not stand in a comment or a text: controls other than the tab. -/
def isForbidden (character : Char) : Bool :=
  (character.toNat < 0x20 && character != '\t') || character == '\x7f'

def isWordCharacter (character : Char) : Bool :=
  character.isAlphanum || character == '_' || character == '-'

def lineEnd? : List Char → Option (List Char)
  | [] => some []
  | '\n' :: rest => some rest
  | '\r' :: '\n' :: rest => some rest
  | _ => none

/-- The characters after the blanks, the comment and the line end that finish a line. -/
def finishLine? (characters : List Char) : Option (List Char) :=
  match skipBlanks characters with
  | '#' :: rest => lineEnd? (rest.dropWhile fun character => !isForbidden character)
  | rest => lineEnd? rest

def digitValue? (base : Nat) (character : Char) : Option Nat :=
  let code := character.toNat
  let value :=
    if 0x30 ≤ code ∧ code ≤ 0x39 then code - 0x30
    else if 0x61 ≤ code ∧ code ≤ 0x66 then code - 0x61 + 10
    else if 0x41 ≤ code ∧ code ≤ 0x46 then code - 0x41 + 10
    else base
  if value < base then some value else none

/-- The number of digits in a base; single underscores may stand between digits. -/
def digits? (base : Nat) (value : Nat) (afterDigit : Bool) : List Char → Option Nat
  | [] => if afterDigit then some value else none
  | '_' :: rest => if afterDigit then digits? base value false rest else none
  | character :: rest => do
    let digit ← digitValue? base character
    digits? base (value * base + digit) true rest

/-- The decimal number of a word, which has no leading zero. -/
def decimal? : List Char → Option Nat
  | ['0'] => some 0
  | '0' :: _ => none
  | characters => digits? 10 0 false characters

/-- The integer of a word: a decimal number with or without a sign, or an unsigned number in another
base. -/
def integer? : List Char → Option Int
  | '+' :: rest => (decimal? rest).map Int.ofNat
  | '-' :: rest => (decimal? rest).map fun magnitude => -(magnitude : Int)
  | '0' :: 'x' :: rest => (digits? 16 0 false rest).map Int.ofNat
  | '0' :: 'o' :: rest => (digits? 8 0 false rest).map Int.ofNat
  | '0' :: 'b' :: rest => (digits? 2 0 false rest).map Int.ofNat
  | characters => (decimal? characters).map Int.ofNat

/-- The character with the code point that hexadecimal digits give, unless it is a surrogate or
beyond the last one. -/
def codePoint? (digits : List Char) : Option Char := do
  let code ← digits? 16 0 false digits
  if digits.contains '_' then none
  else if code.isValidChar then some (Char.ofNat code)
  else none

def shortEscape? (letter : Char) : Option Char :=
  if letter = '"' ∨ letter = '\\' then some letter
  else if letter = 'b' then some '\x08'
  else if letter = 't' then some '\t'
  else if letter = 'n' then some '\n'
  else if letter = 'e' then some '\x1B'
  else if letter = 'f' then some '\x0C'
  else if letter = 'r' then some '\r'
  else none

/-- Whether the characters after a backslash only end the line. -/
def isLineContinuation (characters : List Char) : Bool :=
  match skipBlanks characters with
  | '\n' :: _ => true
  | '\r' :: '\n' :: _ => true
  | _ => false

def skipBlanksAndBreaks : List Char → List Char
  | '\n' :: rest => skipBlanksAndBreaks rest
  | '\r' :: '\n' :: rest => skipBlanksAndBreaks rest
  | character :: rest => if isBlank character then skipBlanksAndBreaks rest else character :: rest
  | [] => []

/-- The text up to the closing quotation mark, with escapes.  A text over several lines ends with
three quotation marks, may hold line ends, and drops a line end after a backslash together with the
blanks around it.  Every round takes at least one character. -/
def escapedText (severalLines : Bool) (found : List Char) : Nat → Scan String
  | 0, _ => none
  | _ + 1, [] => none
  | rounds + 1, '\\' :: 'x' :: a :: b :: rest =>
    match codePoint? [a, b] with
    | some character => escapedText severalLines (character :: found) rounds rest
    | none => none
  | rounds + 1, '\\' :: 'u' :: a :: b :: c :: d :: rest =>
    match codePoint? [a, b, c, d] with
    | some character => escapedText severalLines (character :: found) rounds rest
    | none => none
  | rounds + 1, '\\' :: 'U' :: a :: b :: c :: d :: e :: f :: g :: h :: rest =>
    match codePoint? [a, b, c, d, e, f, g, h] with
    | some character => escapedText severalLines (character :: found) rounds rest
    | none => none
  | rounds + 1, '\\' :: rest =>
    if severalLines && isLineContinuation rest then
      escapedText severalLines found rounds (skipBlanksAndBreaks rest)
    else
      match rest with
      | letter :: rest =>
        match shortEscape? letter with
        | some character => escapedText severalLines (character :: found) rounds rest
        | none => none
      | [] => none
  | rounds + 1, '"' :: rest =>
    if severalLines then
      match rest with
      | '"' :: '"' :: rest => some (String.ofList found.reverse, rest)
      | rest => escapedText severalLines ('"' :: found) rounds rest
    else some (String.ofList found.reverse, rest)
  | rounds + 1, character :: rest =>
    if severalLines && (lineEnd? (character :: rest)).isSome then
      escapedText severalLines ('\n' :: found) rounds (if character = '\n' then rest else rest.tail)
    else if isForbidden character then none
    else escapedText severalLines (character :: found) rounds rest

/-- The text up to the closing apostrophe, without escapes.  A text over several lines ends with
three apostrophes and may hold line ends. -/
def literalText (severalLines : Bool) (found : List Char) : Scan String
  | [] => none
  | '\'' :: '\'' :: '\'' :: rest =>
    if severalLines then some (String.ofList found.reverse, rest)
    else some (String.ofList found.reverse, '\'' :: '\'' :: rest)
  | '\'' :: rest =>
    if severalLines then literalText severalLines ('\'' :: found) rest
    else some (String.ofList found.reverse, rest)
  | '\r' :: '\n' :: rest =>
    if severalLines then literalText severalLines ('\n' :: found) rest else none
  | character :: rest =>
    if isForbidden character && !(severalLines && character == '\n') then none
    else literalText severalLines (character :: found) rest

/-- The characters after a line end that directly follows the opening quotation marks. -/
def dropFirstBreak : List Char → List Char
  | '\n' :: rest => rest
  | '\r' :: '\n' :: rest => rest
  | rest => rest

def quotedText? : Scan String
  | '"' :: '"' :: '"' :: rest =>
    let body := dropFirstBreak rest
    escapedText true [] (body.length + 1) body
  | '"' :: rest => escapedText false [] (rest.length + 1) rest
  | '\'' :: '\'' :: '\'' :: rest => literalText true [] (dropFirstBreak rest)
  | '\'' :: rest => literalText false [] rest
  | _ => none

/-- The word of a path at the start: bare, or quoted within one line. -/
def pathWord? : Scan String
  | '"' :: rest => escapedText false [] (rest.length + 1) rest
  | '\'' :: rest => literalText false [] rest
  | characters =>
    match characters.span isWordCharacter with
    | ([], _) => none
    | (word, rest) => some (String.ofList word, rest)

/-- The words of a path, separated by points, after those found so far.  Every round takes at least
one character. -/
def pathOnto (found : List String) : Nat → Scan (List String)
  | 0, _ => none
  | rounds + 1, characters => do
    let (word, rest) ← pathWord? (skipBlanks characters)
    match skipBlanks rest with
    | '.' :: rest => pathOnto (word :: found) rounds rest
    | rest => some ((word :: found).reverse, rest)

def path? (characters : List Char) : Option (List String × List Char) :=
  pathOnto [] (characters.length + 1) characters

/-- The characters after blanks, comments and line ends, which may stand between any two parts of a
list or table; none if a comment or a line end is malformed.  Every round takes a line. -/
def skipGapWithin : Nat → List Char → Option (List Char)
  | 0, _ => none
  | rounds + 1, characters =>
    match skipBlanks characters with
    | [] => some []
    | first :: rest =>
      if first = '#' ∨ first = '\r' ∨ first = '\n' then
        (finishLine? (first :: rest)).bind (skipGapWithin rounds)
      else some (first :: rest)

def skipGap? (characters : List Char) : Option (List Char) :=
  skipGapWithin (characters.length + 1) characters

def nothing? : List Char → Option (List Char)
  | '[' :: rest => do
    match ← skipGap? rest with
    | ']' :: rest => some rest
    | _ => none
  | '\x7b' :: rest => do
    match ← skipGap? rest with
    | '\x7d' :: rest => some rest
    | _ => none
  | _ => none

/-- The characters after the end of a table that has an entry; a comma may follow the entry. -/
def tableEnd? (characters : List Char) : Option (List Char) := do
  match ← skipGap? characters with
  | '\x7d' :: rest => some rest
  | ',' :: rest =>
    match ← skipGap? rest with
    | '\x7d' :: rest => some rest
    | _ => none
  | _ => none

/-- The table at the start, after its opening brace: empty, or with one empty entry. -/
def table? (characters : List Char) : Option (Setting × List Char) := do
  match ← skipGap? characters with
  | '\x7d' :: rest => some (.nothing, rest)
  | rest =>
    match ← path? rest with
    | ([name], rest) =>
      match ← skipGap? rest with
      | '=' :: rest =>
        let rest ← nothing? (← skipGap? rest)
        return (.named name, ← tableEnd? rest)
      | _ => none
    | _ => none

def isValueCharacter (character : Char) : Bool :=
  isWordCharacter character || character == '+' || character == '.' || character == ':'

def unquoted? (word : List Char) : Option Setting :=
  if word = ['t', 'r', 'u', 'e'] then some (.flag true)
  else if word = ['f', 'a', 'l', 's', 'e'] then some (.flag false)
  else (integer? word).map .integer

def value? : Scan Setting
  | '"' :: rest => (quotedText? ('"' :: rest)).map fun (text, rest) => (.text text, rest)
  | '\'' :: rest => (quotedText? ('\'' :: rest)).map fun (text, rest) => (.text text, rest)
  | '\x7b' :: rest => table? rest
  | '[' :: rest => (nothing? ('[' :: rest)).map fun rest => (.nothing, rest)
  | characters =>
    let (word, rest) := characters.span isValueCharacter
    (unquoted? word).map fun setting => (setting, rest)

def line? (characters : List Char) : Option (Option Line × List Char) :=
  match finishLine? characters with
  | some rest => some (none, rest)
  | none =>
    match skipBlanks characters with
    | '[' :: rest => do
      match ← path? rest with
      | (path, ']' :: rest) => return (some (.heading path), ← finishLine? rest)
      | _ => none
    | rest => do
      match ← path? rest with
      | (path, '=' :: rest) =>
        let (value, rest) ← value? (skipBlanks rest)
        return (some (.assignment path value), ← finishLine? rest)
      | _ => none

/-- The lines of a settings file, after those found so far; none if a line is malformed.  Every
round takes at least one character. -/
def linesOnto (found : List Line) : Nat → List Char → Option (List Line)
  | _, [] => some found.reverse
  | 0, _ => none
  | rounds + 1, characters =>
    match line? characters with
    | some (some line, rest) => linesOnto (line :: found) rounds rest
    | some (none, rest) => linesOnto found rounds rest
    | none => none

/-- The lines of a settings file that are not blank; none if a line is malformed.  A byte order mark
at the start is passed over. -/
def lines? (text : String) : Option (List Line) :=
  let characters :=
    match text.toList with
    | '\uFEFF' :: rest => rest
    | rest => rest
  linesOnto [] characters.length characters

end ActionStream.Settings
