import ActionStream.Error
/-!
# How a stream is laid out

The version of a stream decides its character set and how property operands are written; the text
layout decides how the end of a text is found.  A context holds both choices, together with the
choice between strict and lenient decoding.
-/

namespace ActionStream

/-- The sizes of a list of values, added up. -/
def sumOver {α : Type} (size : α → Nat) (values : List α) : Nat :=
  values.foldr (fun value total => size value + total) 0

section SumOver

variable {α : Type} {size : α → Nat}

@[simp]
theorem sumOver_nil : sumOver size [] = 0 :=
  rfl

@[simp]
theorem sumOver_cons (value : α) (values : List α) :
    sumOver size (value :: values) = size value + sumOver size values :=
  rfl

/-- Writing the values one after another takes the sum of their sizes. -/
theorem length_flatMap_eq_sumOver {write : α → List UInt8} {values : List α}
    (each : ∀ value ∈ values, (write value).length = size value) :
    (values.flatMap write).length = sumOver size values := by
  induction values with
  | nil => rfl
  | cons value values ih =>
      rw [List.forall_mem_cons] at each
      rw [List.flatMap_cons, List.length_append, each.1, ih each.2, sumOver_cons]

theorem sumOver_congr {other : α → Nat} {values : List α}
    (each : ∀ value ∈ values, size value = other value) :
    sumOver size values = sumOver other values := by
  induction values with
  | nil => rfl
  | cons value values ih =>
      rw [List.forall_mem_cons] at each
      rw [sumOver_cons, sumOver_cons, each.1, ih each.2]

theorem length_le_sumOver {values : List α} (positive : ∀ value ∈ values, 1 ≤ size value) :
    values.length ≤ sumOver size values := by
  induction values with
  | nil => exact Nat.le_refl 0
  | cons value values ih =>
      rw [List.forall_mem_cons] at positive
      have bound := ih positive.2
      rw [List.length_cons, sumOver_cons]
      omega

theorem le_sumOver_of_mem {value : α} {values : List α} (member : value ∈ values) :
    size value ≤ sumOver size values := by
  induction member with
  | head rest => exact Nat.le_add_right ..
  | tail first _ ih => exact Nat.le_add_left_of_le ih

end SumOver

inductive TextLayout where
  /-- The encoded bytes, then a zero byte. -/
  | nulTerminated
  /-- A 16-bit byte count, then the encoded bytes. -/
  | lengthPrefixed
  deriving DecidableEq, Repr, Inhabited

namespace TextLayout

def encodedLength : TextLayout → Nat → Nat
  | nulTerminated, byteLength => byteLength + 1
  | lengthPrefixed, byteLength => byteLength + 2

/-- Refuses encoded bytes whose end the layout cannot mark. -/
def check (layout : TextLayout) (encoded : List UInt8) : Except CodecError Unit :=
  match layout with
  | nulTerminated =>
    if encoded.contains 0 then .error (.invalidText (.interiorNul encoded)) else .ok ()
  | lengthPrefixed =>
    if 65535 < encoded.length then
      .error (.outOfRange "text length" encoded.length 0 65535)
    else .ok ()

end TextLayout

inductive TextEncoding where
  /-- One byte for each of the first 256 characters. -/
  | latin1
  | utf8
  deriving DecidableEq, Repr

namespace TextEncoding

/-- The character set changed with version 6. -/
def ofVersion (version : UInt8) : TextEncoding :=
  if version < 6 then latin1 else utf8

/-- The encoded length of a text; a text that cannot be encoded counts one byte for each
character. -/
def byteLength : TextEncoding → String → Nat
  | latin1, text => text.length
  | utf8, text => text.utf8ByteSize

/-- The single bytes of a list of characters of `text`, after the bytes found so far. -/
def latin1Bytes (text : String) (found : List UInt8) : List Char → Except CodecError (List UInt8)
  | [] => .ok found.reverse
  | character :: rest =>
    if character.toNat < 256 then
      latin1Bytes text (UInt8.ofNat character.toNat :: found) rest
    else .error (.invalidText (.notLatin1 character text))

/-- Whether all characters of a text are among the first 128, which the character sets encode
alike. -/
def isAscii (text : String) : Bool :=
  text.toList.all fun character => character.toNat < 128

def encode : TextEncoding → String → Except CodecError (List UInt8)
  | latin1, text =>
    if isAscii text then .ok (Text.Utf8.encode text) else latin1Bytes text [] text.toList
  | utf8, text => .ok (Text.Utf8.encode text)

def decode : TextEncoding → List UInt8 → Except CodecError String
  | latin1, bytes => .ok (String.ofList (bytes.map fun byte => Char.ofNat byte.toNat))
  | utf8, bytes =>
    match Text.Utf8.decode bytes with
    | .ok text => .ok text
    | .error fault => .error (.invalidText (.notUtf8 fault))

end TextEncoding

def defaultVersion : UInt8 := 6

/-- What the codec has to know beyond the actions themselves. -/
structure Context where
  version : UInt8 := defaultVersion
  layout : TextLayout := .nulTerminated
  /-- Whether decoding accepts fixed-form gaps, unread header bytes and reserved flag bits. -/
  lenient : Bool := false
  deriving DecidableEq, Repr, Inhabited

namespace Context

def encoding (context : Context) : TextEncoding :=
  .ofVersion context.version

def textSize (context : Context) (text : String) : Nat :=
  context.layout.encodedLength (context.encoding.byteLength text)

/-- Property operands are floating-point words before version 5 and integers from then on. -/
def propertiesAsFloat (context : Context) : Bool :=
  context.version < 5

end Context

end ActionStream
