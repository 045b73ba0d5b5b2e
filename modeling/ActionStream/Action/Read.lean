import ActionStream.Action.Basic
/-!
# Decoding actions

The header of an action is read from exactly the bytes that its length field declares; the regions
are read from what follows.  A region is read action by action until its declared number of bytes
is used up, and has to end there.  Regions nest to a fixed depth, which also bounds the recursion:
an action is read relative to a reader for its regions, and a region of one level is read with
regions of one level less.  The program is the same for every monad that input can be read in;
decoding runs it in the readers.
-/

namespace ActionStream

/-- The number of regions that may be open at a time. -/
def deepestNesting : Nat := 64

namespace Action

open MonadCursor

/-- Fails if a header was longer than its fields, unless decoding is lenient. -/
def closeHeader (context : Context) (opcode : UInt8) (declared : Nat) (left : Cursor) :
    Reader Unit :=
  if left.atEnd ∨ context.lenient = true then pure ()
  else throw (.bodyLengthMismatch opcode declared left.position)

/-- The actions of a region, if it ends where it was declared to end. -/
def closeRegion (limit : Nat) (found : List Action) : Reader (List Action) := do
  let consumed := (← get).sinceMark
  if consumed = limit then pure found.reverse else throw (.frameOverrun limit consumed)

/-- The action of a fixed-form opcode; a gap is an opaque action if decoding is lenient. -/
def ofFixedForm (context : Context) (opcode : UInt8) : Except CodecError Action :=
  match BasicOp.ofOpcode? opcode with
  | some op => .ok (basic op)
  | none =>
    if context.lenient then .ok (unknown opcode []) else .error (.unknownBasicOpcode opcode)

section

variable {m : Type → Type} [Monad m] [MonadCursor m]

def readPlain (context : Context) (kind : PlainKind) : m Action := do
  let declared ← step Reader.word16
  let header ← step (Reader.part declared.toNat "action body")
  let (fields, left) ← step (Reader.within header (Plain.read context kind))
  step (closeHeader context kind.opcode declared.toNat left)
  return plain fields

/-- Reads the length field and the fields of a header, then the regions that it announces. -/
def readBlock (region : Nat → m (List Action)) (context : Context) (kind : BlockKind) :
    m Action := do
  let declared ← step Reader.word16
  let header ← step (Reader.part declared.toNat "action body")
  let (sized, left) ← step (Reader.within header (Block.read context kind))
  let fields ← sized.visit fun size => region size.toNat
  step (closeHeader context kind.opcode declared.toNat left)
  return block fields

/-- Reads the length field of a frame call and passes over what it declares. -/
def readCall : m Action := do
  let declared ← step Reader.word16
  step (Reader.skip declared.toNat)
  return call

def readUnknown (opcode : UInt8) : m Action := do
  let declared ← step Reader.word16
  unknown opcode <$> step (Reader.block declared.toNat)

/-- Reads what follows an opcode, given a reader for regions of a given number of bytes. -/
def readAfter (region : Nat → m (List Action)) (context : Context) (opcode : UInt8) : m Action :=
  if isFixedForm opcode then step (Reader.ofExcept (ofFixedForm context opcode))
  else if opcode = callOpcode then readCall
  else
    match PlainKind.ofOpcode? opcode, BlockKind.ofOpcode? opcode with
    | some kind, _ => readPlain context kind
    | none, some kind => readBlock region context kind
    | none, none => readUnknown opcode

def readWith (region : Nat → m (List Action)) (context : Context) : m Action := do
  let opcode ← step Reader.byte
  readAfter region context opcode

/-- Reads actions until `limit` bytes since the mark are used up.  A reader that moves the cursor
needs no more rounds than there are bytes. -/
def fillRegion (read : m Action) (limit : Nat) (found : List Action) : Nat → m (List Action)
  | 0 => step (closeRegion limit found)
  | rounds + 1 => do
    if (← step get).sinceMark < limit then
      let action ← read
      fillRegion read limit (action :: found) rounds
    else step (closeRegion limit found)

/-- Reads a region that is not empty; an empty region is no region, and one that is longer than the
input is not opened. -/
def openRegion (limit : Nat) (read : m (List Action)) : m (List Action) := do
  let cursor ← step get
  if limit = 0 then pure []
  else if (cursor.unread.take limit).length < limit then
    step (throw (.unexpectedEnd "framed region"))
  else read

/-- Reads a region of `limit` bytes inside which the given number of further levels may open. -/
def regionAt (context : Context) : Nat → Nat → m (List Action)
  | 0, limit => openRegion limit (step (throw (.nestingTooDeep deepestNesting)))
  | levels + 1, limit =>
    openRegion limit
      (marked (fillRegion (readWith (regionAt context levels) context) limit [] limit))

/-- Reads an action; every mark held counts as an open region. -/
def readNext (context : Context) : m Action := do
  let cursor ← step get
  readWith (regionAt context (deepestNesting - cursor.depth)) context

end

/-- Reads a region of `limit` bytes; every mark held counts as an open region. -/
def readRegion (context : Context) (limit : Nat) : Reader (List Action) := do
  regionAt context (deepestNesting - (← get).depth) limit

def read (context : Context) : Reader Action :=
  readNext context

/-- The actions that a byte string encodes. -/
def decodeAll (context : Context) (bytes : List UInt8) : Except CodecError (List Action) :=
  match untilEnd (read context) (Cursor.ofBytes bytes) with
  | .ok actions _ => .ok actions
  | .error error _ => .error error

end Action

end ActionStream
