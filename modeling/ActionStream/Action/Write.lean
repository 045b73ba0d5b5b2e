import ActionStream.Action.Size
/-!
# Encoding actions

An action with a length field is written as opcode, length, header and regions.  The length of the
header is settled before anything is written; the sizes of the regions are settled before any field
of the header is written.  The header is compared with its length once it is written.
-/

namespace ActionStream

namespace Action

/-- The number of bytes of a region as a 16-bit word; refused if it does not fit. -/
def regionSize (context : Context) (opcode : UInt8) (region : List Action) : Writer UInt16 :=
  let length := totalSize context region
  if length ≤ 65535 then pure (UInt16.ofNat length) else throw (.bodyTooLarge opcode length)

/-- Writes the opcode, the length and the header, and compares the header with its length. -/
def writeHeader (opcode : UInt8) (length : Nat) (fields : Writer Unit) : Writer Unit := do
  if 65535 < length then throw (.bodyTooLarge opcode length)
  Writer.byte opcode
  Writer.word16 (UInt16.ofNat length)
  let start := (← get).position
  fields
  let written := (← get).position - start
  if written ≠ length then throw (.lengthMismatch opcode length written)

/-- Writes the header of an action with regions, with their sizes in place. -/
def writeBlockFields (context : Context) (fields : Block (List Action)) : Writer Unit := do
  let sized ← fields.visit (regionSize context fields.opcode)
  sized.write context

/-- Writes an opaque action; a fixed-form opcode stands alone. -/
def writeUnknown (opcode : UInt8) (body : List UInt8) : Writer Unit := do
  Writer.byte opcode
  if isFixedForm opcode then pure ()
  else if 65535 < body.length then throw (.bodyTooLarge opcode body.length)
  else
    Writer.word16 (UInt16.ofNat body.length)
    Writer.block body

mutual

def write (context : Context) : Action → Writer Unit
  | basic op => Writer.byte op.opcode
  | plain fields => writeHeader fields.opcode (fields.headerSize context) (fields.write context)
  | block fields => do
    writeHeader fields.opcode (fields.headerSize context) (writeBlockFields context fields)
    writeRegions context fields
  | call => do
    Writer.byte callOpcode
    Writer.word16 0
  | unknown opcode body => writeUnknown opcode body

def writeRegions (context : Context) : Block (List Action) → Writer Unit
  | .defineFunction _ _ body => writeAll context body
  | .defineFunction2 _ _ _ _ body => writeAll context body
  | .tryCatch tryBody _ catchBody finallyBody => do
    writeAll context tryBody
    writeAll context catchBody
    writeAll context finallyBody
  | .withObject body => writeAll context body

def writeAll (context : Context) : List Action → Writer Unit
  | [] => pure ()
  | first :: rest => do
    write context first
    writeAll context rest

end

def encode (context : Context) (action : Action) : Except CodecError (List UInt8) :=
  Writer.output (write context action)

/-- The encoded form of a list of actions. -/
def encodeAll (context : Context) (actions : List Action) : Except CodecError (List UInt8) :=
  Writer.output (writeAll context actions)

end Action

end ActionStream
