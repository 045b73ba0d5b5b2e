import ActionStream.Operand.Push
/-!
# Actions with a length field and no region

Thirteen kinds of action consist of an opcode, a length field and a header that holds all of
their fields.  This module lists the fields of each kind, the size of its header and how the header
is written and read.
-/

namespace ActionStream

/-- How the variables of a timeline are sent with a request. -/
inductive SendMethod where
  | none
  | get
  | post
  deriving DecidableEq, Repr

namespace SendMethod

def bits : SendMethod → UInt8
  | none => 0
  | get => 1
  | post => 2

/-- The method that two flag bits stand for; the fourth combination has no meaning. -/
def ofBits? (bits : UInt8) : Option SendMethod :=
  if bits = 0 then some none
  else if bits = 1 then some get
  else if bits = 2 then some post
  else Option.none

end SendMethod

/-- The fields of an action without regions. -/
inductive Plain where
  | gotoFrame (frame : UInt16)
  | getUrl (url target : String)
  | storeRegister (register : RegisterIndex)
  /-- Define the table that constant operands index. -/
  | constantPool (strings : List String)
  /-- Skip some actions unless a frame is loaded. -/
  | waitForFrame (frame : UInt16) (skipCount : UInt8)
  | setTarget (target : String)
  | gotoLabel (label : String)
  | waitForFrame2 (skipCount : UInt8)
  | push (values : List PushValue)
  /-- Continue at an offset from the end of the action. -/
  | jump (offset : Int16)
  /-- Load the resource on the stack. -/
  | getUrl2 (method : SendMethod) (loadTarget loadVariables : Bool)
  | branchIf (offset : Int16)
  /-- Go to the frame on the stack. -/
  | gotoFrame2 (play : Bool) (sceneBias : UInt16)
  deriving DecidableEq, Repr

inductive PlainKind where
  | gotoFrame
  | getUrl
  | storeRegister
  | constantPool
  | waitForFrame
  | setTarget
  | gotoLabel
  | waitForFrame2
  | push
  | jump
  | getUrl2
  | branchIf
  | gotoFrame2
  deriving DecidableEq, Repr

namespace PlainKind

def opcode : PlainKind → UInt8
  | gotoFrame => 0x81
  | getUrl => 0x83
  | storeRegister => 0x87
  | constantPool => 0x88
  | waitForFrame => 0x8A
  | setTarget => 0x8B
  | gotoLabel => 0x8C
  | waitForFrame2 => 0x8D
  | push => 0x96
  | jump => 0x99
  | getUrl2 => 0x9A
  | branchIf => 0x9D
  | gotoFrame2 => 0x9F

def all : List PlainKind :=
  [gotoFrame, getUrl, storeRegister, constantPool, waitForFrame, setTarget, gotoLabel,
    waitForFrame2, push, jump, getUrl2, branchIf, gotoFrame2]

def ofOpcode? (opcode : UInt8) : Option PlainKind :=
  all.find? fun kind => kind.opcode == opcode

theorem ofOpcode?_opcode (kind : PlainKind) : ofOpcode? kind.opcode = some kind := by
  cases kind <;> rfl

end PlainKind

/-- Fails for flag bits without a meaning, unless decoding is lenient. -/
def refuseReserved (context : Context) (opcode : UInt8) (reserved flags : UInt16) : Reader Unit :=
  if reserved ≠ 0 ∧ context.lenient = false then throw (.invalidFlags opcode flags) else pure ()

namespace Plain

def kind : Plain → PlainKind
  | gotoFrame _ => .gotoFrame
  | getUrl _ _ => .getUrl
  | storeRegister _ => .storeRegister
  | constantPool _ => .constantPool
  | waitForFrame _ _ => .waitForFrame
  | setTarget _ => .setTarget
  | gotoLabel _ => .gotoLabel
  | waitForFrame2 _ => .waitForFrame2
  | push _ => .push
  | jump _ => .jump
  | getUrl2 _ _ _ => .getUrl2
  | branchIf _ => .branchIf
  | gotoFrame2 _ _ => .gotoFrame2

def opcode (fields : Plain) : UInt8 :=
  fields.kind.opcode

def headerSize (context : Context) : Plain → Nat
  | gotoFrame _ => 2
  | getUrl url target => context.textSize url + context.textSize target
  | storeRegister _ => 1
  | constantPool strings => 2 + sumOver context.textSize strings
  | waitForFrame _ _ => 3
  | setTarget target => context.textSize target
  | gotoLabel label => context.textSize label
  | waitForFrame2 _ => 1
  | push values => sumOver (PushValue.size context) values
  | jump _ => 2
  | getUrl2 _ _ _ => 1
  | branchIf _ => 2
  | gotoFrame2 _ sceneBias => if sceneBias = 0 then 1 else 3

def requestFlags (method : SendMethod) (loadTarget loadVariables : Bool) : UInt8 :=
  method.bits + (if loadTarget then 0x40 else 0) + (if loadVariables then 0x80 else 0)

/-- The flag byte of a stack-driven jump to a frame; the bias is announced only if it is not
zero. -/
def frameFlags (play : Bool) (sceneBias : UInt16) : UInt8 :=
  (if play then 1 else 0) + (if sceneBias = 0 then 0 else 2)

def write (context : Context) : Plain → Writer Unit
  | gotoFrame frame => Writer.word16 frame
  | getUrl url target => do
    Writer.text context url
    Writer.text context target
  | storeRegister register => Writer.byte register.value
  | constantPool strings => do
    Writer.word16 (UInt16.ofNat strings.length)
    Writer.each (Writer.text context) strings
  | waitForFrame frame skipCount => do
    Writer.word16 frame
    Writer.byte skipCount
  | setTarget target => Writer.text context target
  | gotoLabel label => Writer.text context label
  | waitForFrame2 skipCount => Writer.byte skipCount
  | push values => Writer.each (PushValue.write context) values
  | jump offset => Writer.signed16 offset
  | getUrl2 method loadTarget loadVariables =>
    Writer.byte (requestFlags method loadTarget loadVariables)
  | branchIf offset => Writer.signed16 offset
  | gotoFrame2 play sceneBias => do
    Writer.byte (frameFlags play sceneBias)
    if sceneBias = 0 then pure () else Writer.word16 sceneBias

def readRequest (context : Context) : Reader Plain := do
  let flags ← Reader.byte
  refuseReserved context 0x9A (flags &&& 0x3C).toUInt16 flags.toUInt16
  match SendMethod.ofBits? (flags &&& 0x03) with
  | some method => return getUrl2 method (flags &&& 0x40 != 0) (flags &&& 0x80 != 0)
  | Option.none => throw (.invalidFlags 0x9A flags.toUInt16)

/-- Reads the flag byte and the announced bias of a stack-driven jump to a frame. -/
def readFrameJump (context : Context) : Reader Plain := do
  let flags ← Reader.byte
  refuseReserved context 0x9F (flags &&& 0xFC).toUInt16 flags.toUInt16
  let sceneBias ← if flags &&& 0x02 = 0 then pure 0 else Reader.word16
  return gotoFrame2 (flags &&& 0x01 != 0) sceneBias

def read (context : Context) : PlainKind → Reader Plain
  | .gotoFrame => gotoFrame <$> Reader.word16
  | .getUrl => do
    let url ← Reader.text context
    let target ← Reader.text context
    return getUrl url target
  | .storeRegister => (fun number => storeRegister ⟨number⟩) <$> Reader.byte
  | .constantPool => do
    let count ← Reader.word16
    constantPool <$> Reader.repeated (Reader.text context) count.toNat
  | .waitForFrame => do
    let frame ← Reader.word16
    let skipCount ← Reader.byte
    return waitForFrame frame skipCount
  | .setTarget => setTarget <$> Reader.text context
  | .gotoLabel => gotoLabel <$> Reader.text context
  | .waitForFrame2 => waitForFrame2 <$> Reader.byte
  | .push => push <$> MonadCursor.untilEnd (PushValue.read context)
  | .jump => jump <$> Reader.signed16
  | .getUrl2 => readRequest context
  | .branchIf => branchIf <$> Reader.signed16
  | .gotoFrame2 => readFrameJump context

end Plain

end ActionStream
