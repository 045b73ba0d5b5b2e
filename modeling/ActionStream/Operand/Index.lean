import ActionStream.Error
/-!
# Register and table indices

An index is a number that fits the field that holds it.  Larger numbers are refused where an
index is made from a number.
-/

namespace ActionStream

/-- One of the 256 registers. -/
structure RegisterIndex where
  value : UInt8
  deriving DecidableEq, Repr, Inhabited

namespace RegisterIndex

def ofNat (number : Nat) : Except CodecError RegisterIndex :=
  if number ≤ 255 then .ok ⟨UInt8.ofNat number⟩
  else .error (.outOfRange "register index" number 0 255)

def toNat (register : RegisterIndex) : Nat :=
  register.value.toNat

def text (register : RegisterIndex) : String :=
  s!"r:{register.toNat}"

end RegisterIndex

/-- A position in the constant pool. -/
structure TableIndex where
  value : UInt16
  deriving DecidableEq, Repr, Inhabited

namespace TableIndex

def ofNat (number : Nat) : Except CodecError TableIndex :=
  if number ≤ 65535 then .ok ⟨UInt16.ofNat number⟩
  else .error (.outOfRange "table index" number 0 65535)

def toNat (index : TableIndex) : Nat :=
  index.value.toNat

/-- Whether the position does not fit one byte. -/
def isWide (index : TableIndex) : Bool :=
  255 < index.value

def text (index : TableIndex) : String :=
  s!"c:{index.toNat}"

end TableIndex

end ActionStream
