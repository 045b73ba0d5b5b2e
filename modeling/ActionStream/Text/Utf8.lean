/-!
# The variable-width encoding of Unicode text

A byte string is split into pieces: each is either one well-formed character or a fault, the
longest valid beginning of a sequence that does not continue as it must.  Strict decoding reports
the first fault; display decoding shows each fault as a replacement character.
-/

namespace ActionStream.Text.Utf8

def encode (text : String) : List UInt8 :=
  text.toList.flatMap String.utf8EncodeChar

theorem length_encode (text : String) : (encode text).length = text.utf8ByteSize := by
  have sameBytes : text.toByteArray = (encode text).toByteArray := by
    conv => lhs; rw [← String.ofList_toList (s := text)]
    simp [encode, String.ofList, List.utf8Encode]
  rw [← String.size_toByteArray, sameBytes]
  simp

inductive Fault where
  /-- The `length` bytes from `index` on begin a sequence that the next byte does not continue. -/
  | malformed (length index : Nat)
  /-- The input ends inside the sequence that starts at `index`. -/
  | truncated (index : Nat)
  deriving DecidableEq, Repr

/-- A part of a byte string: a character, or a place where decoding is impossible. -/
inductive Piece where
  | character (value : Char)
  | fault (fault : Fault)
  deriving DecidableEq, Repr

/-- Whether a byte may stand after the second position of a sequence. -/
def isContinuation (byte : UInt8) : Bool :=
  0x80 ≤ byte && byte ≤ 0xBF

/-- Whether the second byte of a three-byte sequence may follow its first: no overlong form and
no surrogate. -/
def isSecondOfThree (lead second : UInt8) : Bool :=
  if lead = 0xE0 then 0xA0 ≤ second && second ≤ 0xBF
  else if lead = 0xED then 0x80 ≤ second && second ≤ 0x9F
  else isContinuation second

/-- Whether the second byte of a four-byte sequence may follow its first: no overlong form and
nothing above the last code point. -/
def isSecondOfFour (lead second : UInt8) : Bool :=
  if lead = 0xF0 then 0x90 ≤ second && second ≤ 0xBF
  else if lead = 0xF4 then 0x80 ≤ second && second ≤ 0x8F
  else isContinuation second

def characterOfTwo (lead second : UInt8) : Char :=
  Char.ofNat ((lead.toNat - 0xC0) * 64 + (second.toNat - 0x80))

def characterOfThree (lead second third : UInt8) : Char :=
  Char.ofNat ((lead.toNat - 0xE0) * 4096 + (second.toNat - 0x80) * 64 + (third.toNat - 0x80))

def characterOfFour (lead second third fourth : UInt8) : Char :=
  Char.ofNat ((lead.toNat - 0xF0) * 262144 + (second.toNat - 0x80) * 4096 +
    (third.toNat - 0x80) * 64 + (fourth.toNat - 0x80))

/-- The pieces of a byte string whose first byte stands at `index`, put in reverse order before
the pieces found so far. -/
def piecesFrom (index : Nat) (found : List Piece) : List UInt8 → List Piece
  | [] => found
  | lead :: rest =>
    if lead < 0x80 then
      piecesFrom (index + 1) (.character (Char.ofNat lead.toNat) :: found) rest
    else if 0xC2 ≤ lead ∧ lead ≤ 0xDF then
      match rest with
      | [] => .fault (.truncated index) :: found
      | second :: rest =>
        if isContinuation second then
          piecesFrom (index + 2) (.character (characterOfTwo lead second) :: found) rest
        else piecesFrom (index + 1) (.fault (.malformed 1 index) :: found) (second :: rest)
    else if 0xE0 ≤ lead ∧ lead ≤ 0xEF then
      match rest with
      | [] => .fault (.truncated index) :: found
      | second :: rest =>
        if isSecondOfThree lead second then
          match rest with
          | [] => .fault (.truncated index) :: found
          | third :: rest =>
            if isContinuation third then
              piecesFrom (index + 3) (.character (characterOfThree lead second third) :: found) rest
            else piecesFrom (index + 2) (.fault (.malformed 2 index) :: found) (third :: rest)
        else piecesFrom (index + 1) (.fault (.malformed 1 index) :: found) (second :: rest)
    else if 0xF0 ≤ lead ∧ lead ≤ 0xF4 then
      match rest with
      | [] => .fault (.truncated index) :: found
      | second :: rest =>
        if isSecondOfFour lead second then
          match rest with
          | [] => .fault (.truncated index) :: found
          | third :: rest =>
            if isContinuation third then
              match rest with
              | [] => .fault (.truncated index) :: found
              | fourth :: rest =>
                if isContinuation fourth then
                  piecesFrom (index + 4)
                    (.character (characterOfFour lead second third fourth) :: found) rest
                else piecesFrom (index + 3) (.fault (.malformed 3 index) :: found) (fourth :: rest)
            else piecesFrom (index + 2) (.fault (.malformed 2 index) :: found) (third :: rest)
        else piecesFrom (index + 1) (.fault (.malformed 1 index) :: found) (second :: rest)
    else piecesFrom (index + 1) (.fault (.malformed 1 index) :: found) rest

def pieces (bytes : List UInt8) : List Piece :=
  (piecesFrom 0 [] bytes).reverse

/-- The characters of a list of pieces, or its first fault. -/
def charactersOrFault (found : List Char) : List Piece → Except Fault (List Char)
  | [] => .ok found.reverse
  | .character value :: rest => charactersOrFault (value :: found) rest
  | .fault fault :: _ => .error fault

/-- The text that a byte string encodes, or the first place where it is not encoded text. -/
def decode (bytes : List UInt8) : Except Fault String :=
  (charactersOrFault [] (pieces bytes)).map String.ofList

/-- The text shown for a byte string: every fault becomes one replacement character. -/
def display (bytes : List UInt8) : String :=
  String.ofList ((pieces bytes).map fun piece =>
    match piece with
    | .character value => value
    | .fault _ => '\uFFFD')

end ActionStream.Text.Utf8
