import ActionStream.Context
import ActionStream.Wire.LittleEndian
/-!
# Output under construction

A buffer is the bytes written so far.  A writer appends to a buffer; when it fails, the bytes
written before the failure stay.
-/

namespace ActionStream

/-- The bytes written so far. -/
structure Buffer where
  bytes : Array UInt8
  deriving DecidableEq, Repr

namespace Buffer

def empty : Buffer :=
  ⟨#[]⟩

def position (buffer : Buffer) : Nat :=
  buffer.bytes.size

def toList (buffer : Buffer) : List UInt8 :=
  buffer.bytes.toList

def append (buffer : Buffer) (more : List UInt8) : Buffer :=
  ⟨buffer.bytes.appendList more⟩

@[simp] theorem toList_empty : empty.toList = [] := rfl

@[simp] theorem toList_append (buffer : Buffer) (more : List UInt8) :
    (buffer.append more).toList = buffer.toList ++ more := by
  simp [append, toList]

@[simp] theorem length_toList (buffer : Buffer) : buffer.toList.length = buffer.position := rfl

end Buffer

/-- An action on a buffer that succeeds or fails; what it has written stays in both cases. -/
abbrev Writer (α : Type) := EStateM CodecError Buffer α

namespace Writer

def block (bytes : List UInt8) : Writer Unit := fun buffer =>
  .ok () (buffer.append bytes)

def byte (value : UInt8) : Writer Unit := block [value]

def word16 (value : UInt16) : Writer Unit := block (Wire.bytesOf16 value)

def signed16 (value : Int16) : Writer Unit := word16 value.toUInt16

def word32 (value : UInt32) : Writer Unit := block (Wire.bytesOf32 value)

def signed32 (value : Int32) : Writer Unit := word32 value.toUInt32

def ofExcept {α : Type} : Except CodecError α → Writer α
  | .ok value => pure value
  | .error error => throw error

/-- The bytes of an encoded text in the given layout. -/
def delimited : TextLayout → List UInt8 → List UInt8
  | .nulTerminated, encoded => encoded ++ [0]
  | .lengthPrefixed, encoded => Wire.bytesOf16 (UInt16.ofNat encoded.length) ++ encoded

theorem length_delimited (layout : TextLayout) (encoded : List UInt8) :
    (delimited layout encoded).length = layout.encodedLength encoded.length := by
  cases layout <;> simp [delimited, TextLayout.encodedLength, Wire.bytesOf16]

/-- Appends a text; writes nothing if the text cannot be encoded or delimited. -/
def text (context : Context) (value : String) : Writer Unit := do
  let encoded ← ofExcept (context.encoding.encode value)
  ofExcept (context.layout.check encoded)
  block (delimited context.layout encoded)

def each {α : Type} (write : α → Writer Unit) : List α → Writer Unit
  | [] => pure ()
  | first :: rest => do
    write first
    each write rest

/-- The result of a writer that starts from nothing: its bytes, or why it failed. -/
def output (write : Writer Unit) : Except CodecError (List UInt8) :=
  match write Buffer.empty with
  | .ok _ buffer => .ok buffer.toList
  | .error error _ => .error error

end Writer

end ActionStream
