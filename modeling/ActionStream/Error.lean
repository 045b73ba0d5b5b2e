import ActionStream.Text.Quoted
import ActionStream.Text.Utf8
/-!
# What can go wrong

Three groups of errors: a value is outside the range that a constructor admits, an input is not
what the format allows, or a tree does not fit the format's length fields.  Each error is a cause;
its wording is given in one place.
-/

namespace ActionStream

/-- Why a text cannot be read or written. -/
inductive TextFault where
  /-- The encoded text holds the byte that would end it. -/
  | interiorNul (encoded : List UInt8)
  | notLatin1 (character : Char) (text : String)
  | notUtf8 (fault : Text.Utf8.Fault)
  deriving DecidableEq, Repr

def TextFault.message : TextFault → String
  | .interiorNul encoded =>
    let shown := Text.quoted (Text.Utf8.display encoded)
    s!"{shown} contains a NUL byte and cannot be NUL-terminated"
  | .notLatin1 character text =>
    let shownCharacter := Text.quotedCharacter character
    let shownText := Text.quoted text
    s!"{shownCharacter} has no Latin-1 encoding in {shownText}"
  | .notUtf8 (.malformed length index) =>
    s!"invalid utf-8 sequence of {length} bytes from index {index}"
  | .notUtf8 (.truncated index) =>
    s!"incomplete utf-8 byte sequence from index {index}"

/-- The causes of failure of the codec. -/
inductive CodecError where
  /-- The input ends before the named item does. -/
  | unexpectedEnd (item : String)
  /-- A value is outside the closed range of the named quantity. -/
  | outOfRange (quantity : String) (value least greatest : Int)
  /-- An opaque action was asked for with an opcode that has a form of its own. -/
  | reservedOpcode (opcode : UInt8)
  | unknownBasicOpcode (opcode : UInt8)
  | unknownPushTag (tag : UInt8)
  /-- The last action of a region ends after the region does. -/
  | frameOverrun (limit consumed : Nat)
  /-- A region was opened inside as many regions as may be open. -/
  | nestingTooDeep (limit : Nat)
  /-- A header declares more bytes than its fields take. -/
  | bodyLengthMismatch (opcode : UInt8) (declared consumed : Nat)
  | bodyTooLarge (opcode : UInt8) (length : Nat)
  /-- A header was written with another length than it declares. -/
  | lengthMismatch (opcode : UInt8) (declared written : Nat)
  | invalidText (fault : TextFault)
  | invalidFlags (opcode : UInt8) (value : UInt16)
  deriving DecidableEq, Repr

namespace CodecError

/-- A number as upper-case hexadecimal with its mark and at least two digits. -/
def shownByte (number : Nat) : String :=
  "0x" ++ Text.hexPadded .upper 2 number

def message : CodecError → String
  | unexpectedEnd item => s!"unexpected end of input while reading {item}"
  | outOfRange quantity value least greatest =>
    s!"{quantity} out of range: {value} (expected {least}..={greatest})"
  | reservedOpcode opcode =>
    s!"opcode {shownByte opcode.toNat} has a dedicated action variant"
  | unknownBasicOpcode opcode => s!"unknown fixed-form opcode {shownByte opcode.toNat}"
  | unknownPushTag tag => s!"unknown push operand tag {tag.toNat}"
  | frameOverrun limit consumed =>
    s!"framed region overrun: declared {limit} bytes, consumed {consumed}"
  | nestingTooDeep limit => s!"framed regions nested deeper than {limit} levels"
  | bodyLengthMismatch opcode declared consumed =>
    s!"action {shownByte opcode.toNat} declared a {declared}-byte body but its fields span " ++
      s!"{consumed} bytes"
  | bodyTooLarge opcode length =>
    s!"action {shownByte opcode.toNat} body of {length} bytes does not fit a 16-bit length field"
  | lengthMismatch opcode declared written =>
    s!"action {shownByte opcode.toNat} declared {declared} body bytes but wrote {written}"
  | invalidText fault => s!"invalid text: {fault.message}"
  | invalidFlags opcode value =>
    s!"action {shownByte opcode.toNat} has invalid flags {shownByte value.toNat}"

/-- Whether the error comes from malformed input rather than from the caller. -/
def isDecodeError : CodecError → Bool
  | unexpectedEnd _ | unknownBasicOpcode _ | unknownPushTag _ | frameOverrun _ _
  | nestingTooDeep _ | bodyLengthMismatch _ _ _ | invalidText _ | invalidFlags _ _ => true
  | outOfRange _ _ _ _ | reservedOpcode _ | bodyTooLarge _ _ | lengthMismatch _ _ _ => false

end CodecError

end ActionStream
