/-!
# Operation codes

Opcodes up to `0x7F` are fixed-form: the opcode byte is the whole action.  Of these, 82 are basic
operations and the others are gaps.  From `0x80` on an opcode is followed by a length field.
-/

namespace ActionStream

/-- Whether an opcode is followed by nothing. -/
def isFixedForm (opcode : UInt8) : Bool :=
  opcode ≤ 0x7F

/-- The operations without operands. -/
inductive BasicOp where
  | endActions
  | nextFrame
  | previousFrame
  | play
  | stop
  | toggleQuality
  | stopSounds
  | add
  | subtract
  | multiply
  | divide
  | equals
  | less
  | and
  | or
  | not
  | stringEquals
  | stringLength
  | stringExtract
  | pop
  | toInteger
  | getVariable
  | setVariable
  | setTarget2
  | stringAdd
  | getProperty
  | setProperty
  | cloneSprite
  | removeSprite
  | trace
  | startDrag
  | endDrag
  | stringLess
  | throw
  | castOp
  | implementsOp
  | randomNumber
  | mbStringLength
  | charToAscii
  | asciiToChar
  | getTime
  | mbStringExtract
  | mbCharToAscii
  | mbAsciiToChar
  | delete
  | delete2
  | defineLocal
  | callFunction
  | returnValue
  | modulo
  | newObject
  | defineLocal2
  | initArray
  | initObject
  | typeOf
  | targetPath
  | enumerate
  | add2
  | less2
  | equals2
  | toNumber
  | toText
  | pushDuplicate
  | stackSwap
  | getMember
  | setMember
  | increment
  | decrement
  | callMethod
  | newMethod
  | instanceOf
  | enumerate2
  | bitAnd
  | bitOr
  | bitXor
  | bitLShift
  | bitRShift
  | bitURShift
  | strictEquals
  | greater
  | stringGreater
  | extendsClass
  deriving DecidableEq, Repr

namespace BasicOp

def opcode : BasicOp → UInt8
  | endActions => 0x00
  | nextFrame => 0x04
  | previousFrame => 0x05
  | play => 0x06
  | stop => 0x07
  | toggleQuality => 0x08
  | stopSounds => 0x09
  | add => 0x0A
  | subtract => 0x0B
  | multiply => 0x0C
  | divide => 0x0D
  | equals => 0x0E
  | less => 0x0F
  | and => 0x10
  | or => 0x11
  | not => 0x12
  | stringEquals => 0x13
  | stringLength => 0x14
  | stringExtract => 0x15
  | pop => 0x17
  | toInteger => 0x18
  | getVariable => 0x1C
  | setVariable => 0x1D
  | setTarget2 => 0x20
  | stringAdd => 0x21
  | getProperty => 0x22
  | setProperty => 0x23
  | cloneSprite => 0x24
  | removeSprite => 0x25
  | trace => 0x26
  | startDrag => 0x27
  | endDrag => 0x28
  | stringLess => 0x29
  | throw => 0x2A
  | castOp => 0x2B
  | implementsOp => 0x2C
  | randomNumber => 0x30
  | mbStringLength => 0x31
  | charToAscii => 0x32
  | asciiToChar => 0x33
  | getTime => 0x34
  | mbStringExtract => 0x35
  | mbCharToAscii => 0x36
  | mbAsciiToChar => 0x37
  | delete => 0x3A
  | delete2 => 0x3B
  | defineLocal => 0x3C
  | callFunction => 0x3D
  | returnValue => 0x3E
  | modulo => 0x3F
  | newObject => 0x40
  | defineLocal2 => 0x41
  | initArray => 0x42
  | initObject => 0x43
  | typeOf => 0x44
  | targetPath => 0x45
  | enumerate => 0x46
  | add2 => 0x47
  | less2 => 0x48
  | equals2 => 0x49
  | toNumber => 0x4A
  | toText => 0x4B
  | pushDuplicate => 0x4C
  | stackSwap => 0x4D
  | getMember => 0x4E
  | setMember => 0x4F
  | increment => 0x50
  | decrement => 0x51
  | callMethod => 0x52
  | newMethod => 0x53
  | instanceOf => 0x54
  | enumerate2 => 0x55
  | bitAnd => 0x60
  | bitOr => 0x61
  | bitXor => 0x62
  | bitLShift => 0x63
  | bitRShift => 0x64
  | bitURShift => 0x65
  | strictEquals => 0x66
  | greater => 0x67
  | stringGreater => 0x68
  | extendsClass => 0x69

def name : BasicOp → String
  | endActions => "End"
  | nextFrame => "NextFrame"
  | previousFrame => "PreviousFrame"
  | play => "Play"
  | stop => "Stop"
  | toggleQuality => "ToggleQuality"
  | stopSounds => "StopSounds"
  | add => "Add"
  | subtract => "Subtract"
  | multiply => "Multiply"
  | divide => "Divide"
  | equals => "Equals"
  | less => "Less"
  | and => "And"
  | or => "Or"
  | not => "Not"
  | stringEquals => "StringEquals"
  | stringLength => "StringLength"
  | stringExtract => "StringExtract"
  | pop => "Pop"
  | toInteger => "ToInteger"
  | getVariable => "GetVariable"
  | setVariable => "SetVariable"
  | setTarget2 => "SetTarget2"
  | stringAdd => "StringAdd"
  | getProperty => "GetProperty"
  | setProperty => "SetProperty"
  | cloneSprite => "CloneSprite"
  | removeSprite => "RemoveSprite"
  | trace => "Trace"
  | startDrag => "StartDrag"
  | endDrag => "EndDrag"
  | stringLess => "StringLess"
  | throw => "Throw"
  | castOp => "CastOp"
  | implementsOp => "ImplementsOp"
  | randomNumber => "RandomNumber"
  | mbStringLength => "MbStringLength"
  | charToAscii => "CharToAscii"
  | asciiToChar => "AsciiToChar"
  | getTime => "GetTime"
  | mbStringExtract => "MbStringExtract"
  | mbCharToAscii => "MbCharToAscii"
  | mbAsciiToChar => "MbAsciiToChar"
  | delete => "Delete"
  | delete2 => "Delete2"
  | defineLocal => "DefineLocal"
  | callFunction => "CallFunction"
  | returnValue => "Return"
  | modulo => "Modulo"
  | newObject => "NewObject"
  | defineLocal2 => "DefineLocal2"
  | initArray => "InitArray"
  | initObject => "InitObject"
  | typeOf => "TypeOf"
  | targetPath => "TargetPath"
  | enumerate => "Enumerate"
  | add2 => "Add2"
  | less2 => "Less2"
  | equals2 => "Equals2"
  | toNumber => "ToNumber"
  | toText => "ToString"
  | pushDuplicate => "PushDuplicate"
  | stackSwap => "StackSwap"
  | getMember => "GetMember"
  | setMember => "SetMember"
  | increment => "Increment"
  | decrement => "Decrement"
  | callMethod => "CallMethod"
  | newMethod => "NewMethod"
  | instanceOf => "InstanceOf"
  | enumerate2 => "Enumerate2"
  | bitAnd => "BitAnd"
  | bitOr => "BitOr"
  | bitXor => "BitXor"
  | bitLShift => "BitLShift"
  | bitRShift => "BitRShift"
  | bitURShift => "BitURShift"
  | strictEquals => "StrictEquals"
  | greater => "Greater"
  | stringGreater => "StringGreater"
  | extendsClass => "Extends"

def all : List BasicOp :=
  [endActions, nextFrame, previousFrame, play, stop, toggleQuality, stopSounds, add, subtract,
    multiply, divide, equals, less, and, or, not, stringEquals, stringLength, stringExtract, pop,
    toInteger, getVariable, setVariable, setTarget2, stringAdd, getProperty, setProperty,
    cloneSprite, removeSprite, trace, startDrag, endDrag, stringLess, throw, castOp,
    implementsOp, randomNumber, mbStringLength, charToAscii, asciiToChar, getTime,
    mbStringExtract, mbCharToAscii, mbAsciiToChar, delete, delete2, defineLocal, callFunction,
    returnValue, modulo, newObject, defineLocal2, initArray, initObject, typeOf, targetPath,
    enumerate, add2, less2, equals2, toNumber, toText, pushDuplicate, stackSwap, getMember,
    setMember, increment, decrement, callMethod, newMethod, instanceOf, enumerate2, bitAnd,
    bitOr, bitXor, bitLShift, bitRShift, bitURShift, strictEquals, greater, stringGreater,
    extendsClass]

def ofOpcode? (opcode : UInt8) : Option BasicOp :=
  all.find? fun op => op.opcode == opcode

def ofName? (name : String) : Option BasicOp :=
  all.find? fun op => op.name == name

theorem ofOpcode?_opcode (op : BasicOp) : ofOpcode? op.opcode = some op := by
  cases op <;> rfl

theorem isFixedForm_opcode (op : BasicOp) : isFixedForm op.opcode = true := by
  cases op <;> rfl

end BasicOp

end ActionStream
