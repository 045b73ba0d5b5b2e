import ActionStream.Number.Binary64
import ActionStream.Operand.Index
import ActionStream.Operand.Property
import ActionStream.Wire.Buffer
import ActionStream.Wire.Cursor
/-!
# Push operands

An operand is a tag byte and a value whose form the tag decides.  Operands follow each other
without a count; the length of the action that holds them tells where they end.
-/

namespace ActionStream

/-- A value that is pushed onto the stack. -/
inductive PushValue where
  | text (value : String)
  | integer (value : Int32)
  | double (value : Binary64)
  | boolean (value : Bool)
  | null
  | undefined
  | register (index : RegisterIndex)
  | constant (index : TableIndex)
  | property (known : Property)
  /-- A property operand whose word is not the written form of any code. -/
  | propertyWord (word : UInt32)
  deriving DecidableEq, Repr

namespace PushValue

def tag : PushValue → UInt8
  | text _ => 0
  | property _ | propertyWord _ => 1
  | null => 2
  | undefined => 3
  | register _ => 4
  | boolean _ => 5
  | double _ => 6
  | integer _ => 7
  | constant index => if index.isWide then 9 else 8

def size (context : Context) : PushValue → Nat
  | text value => 1 + context.textSize value
  | integer _ | property _ | propertyWord _ => 5
  | double _ => 9
  | boolean _ | register _ => 2
  | null | undefined => 1
  | constant index => if index.isWide then 3 else 2

def writeValue (context : Context) : PushValue → Writer Unit
  | text value => Writer.text context value
  | integer value => Writer.signed32 value
  | double value => do
    Writer.word32 value.high
    Writer.word32 value.low
  | boolean value => Writer.byte (if value then 1 else 0)
  | null | undefined => pure ()
  | register index => Writer.byte index.value
  | constant index =>
    if index.isWide then Writer.word16 index.value else Writer.byte index.value.toUInt8
  | property known => Writer.word32 (known.wireWord context.propertiesAsFloat)
  | propertyWord word => Writer.word32 word

def write (context : Context) (value : PushValue) : Writer Unit := do
  Writer.byte value.tag
  value.writeValue context

/-- The operand that a property word stands for. -/
def ofPropertyWord (context : Context) (word : UInt32) : PushValue :=
  match Property.ofWireWord? word context.propertiesAsFloat with
  | some known => property known
  | none => propertyWord word

def readValue (context : Context) (tag : UInt8) : Reader PushValue :=
  if tag = 0 then text <$> Reader.text context
  else if tag = 1 then ofPropertyWord context <$> Reader.word32
  else if tag = 2 then pure null
  else if tag = 3 then pure undefined
  else if tag = 4 then (fun number => register ⟨number⟩) <$> Reader.byte
  else if tag = 5 then (fun value => boolean (value != 0)) <$> Reader.byte
  else if tag = 6 then do
    let high ← Reader.word32
    let low ← Reader.word32
    return double (Binary64.ofWords high low)
  else if tag = 7 then integer <$> Reader.signed32
  else if tag = 8 then (fun number => constant ⟨number.toUInt16⟩) <$> Reader.byte
  else if tag = 9 then (fun number => constant ⟨number⟩) <$> Reader.word16
  else throw (.unknownPushTag tag)

def read (context : Context) : Reader PushValue := do
  let tag ← Reader.byte
  readValue context tag

end PushValue

end ActionStream
