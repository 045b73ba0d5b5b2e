import ActionStream.Action.Plain
/-!
# Actions with regions

Four kinds of action own regions, lists of further actions that follow the header.  In a tree a
region is its list of actions; in a header it is the number of its bytes.  The type of an action
with regions is therefore given for any kind of region, and a function on regions carries over from
one to the other.
-/

namespace ActionStream

/-- The preload and suppress switches of a function with registers. -/
structure FunctionFlags where
  bits : UInt16
  deriving DecidableEq, Repr, Inhabited

namespace FunctionFlags

def none : FunctionFlags :=
  ⟨0⟩

def contains (flags other : FunctionFlags) : Bool :=
  flags.bits &&& other.bits == other.bits

def union (flags other : FunctionFlags) : FunctionFlags :=
  ⟨flags.bits ||| other.bits⟩

/-- The bits above the nine defined switches. -/
def reserved (flags : FunctionFlags) : UInt16 :=
  flags.bits &&& 0xFE00

end FunctionFlags

/-- A parameter of a function with registers: bound to a register, or else by name. -/
structure RegisterParam where
  register : Option RegisterIndex
  name : String
  deriving DecidableEq, Repr

/-- Where a caught value is bound. -/
inductive CatchTarget where
  | name (text : String)
  | register (index : RegisterIndex)
  deriving DecidableEq, Repr, Inhabited

/-- The fields of an action with regions of the given kind. -/
inductive Block (Region : Type) where
  | defineFunction (name : String) (params : List String) (body : Region)
  | defineFunction2 (name : String) (registerCount : UInt8) (flags : FunctionFlags)
      (params : List RegisterParam) (body : Region)
  /-- Run a region, with one for exceptions and one for leaving. -/
  | tryCatch (tryBody : Region) (target : CatchTarget) (catchBody finallyBody : Region)
  | withObject (body : Region)
  deriving DecidableEq, Repr

inductive BlockKind where
  | defineFunction2
  | tryCatch
  | withObject
  | defineFunction
  deriving DecidableEq, Repr

namespace BlockKind

def opcode : BlockKind → UInt8
  | defineFunction2 => 0x8E
  | tryCatch => 0x8F
  | withObject => 0x94
  | defineFunction => 0x9B

def all : List BlockKind :=
  [defineFunction2, tryCatch, withObject, defineFunction]

def ofOpcode? (opcode : UInt8) : Option BlockKind :=
  all.find? fun kind => kind.opcode == opcode

theorem ofOpcode?_opcode (kind : BlockKind) : ofOpcode? kind.opcode = some kind := by
  cases kind <;> rfl

end BlockKind

namespace CatchTarget

def size (context : Context) : CatchTarget → Nat
  | name text => context.textSize text
  | register _ => 1

def isRegister : CatchTarget → Bool
  | name _ => false
  | register _ => true

def write (context : Context) : CatchTarget → Writer Unit
  | name text => Writer.text context text
  | register index => Writer.byte index.value

def read (context : Context) (inRegister : Bool) : Reader CatchTarget :=
  if inRegister then (fun number => register ⟨number⟩) <$> Reader.byte
  else name <$> Reader.text context

end CatchTarget

namespace RegisterParam

def size (context : Context) (param : RegisterParam) : Nat :=
  1 + context.textSize param.name

/-- The byte that stands for the register of a parameter; zero for none. -/
def registerByte (param : RegisterParam) : UInt8 :=
  match param.register with
  | none => 0
  | some register => register.value

def write (context : Context) (param : RegisterParam) : Writer Unit := do
  Writer.byte param.registerByte
  Writer.text context param.name

def read (context : Context) : Reader RegisterParam := do
  let register ← Reader.byte
  let name ← Reader.text context
  return ⟨if register = 0 then none else some ⟨register⟩, name⟩

end RegisterParam

namespace Block

def kind {Region : Type} : Block Region → BlockKind
  | defineFunction _ _ _ => .defineFunction
  | defineFunction2 _ _ _ _ _ => .defineFunction2
  | tryCatch _ _ _ _ => .tryCatch
  | withObject _ => .withObject

def opcode {Region : Type} (fields : Block Region) : UInt8 :=
  fields.kind.opcode

/-- The regions of an action, in the order in which they follow the header. -/
def regions {Region : Type} : Block Region → List Region
  | defineFunction _ _ body => [body]
  | defineFunction2 _ _ _ _ body => [body]
  | tryCatch tryBody _ catchBody finallyBody => [tryBody, catchBody, finallyBody]
  | withObject body => [body]

/-- Visits the regions in order and puts the results in their places. -/
def visit {m : Type → Type} [Monad m] {Source Target : Type} (onRegion : Source → m Target) :
    Block Source → m (Block Target)
  | defineFunction name params body => do
    return defineFunction name params (← onRegion body)
  | defineFunction2 name registerCount flags params body => do
    return defineFunction2 name registerCount flags params (← onRegion body)
  | tryCatch tryBody target catchBody finallyBody => do
    let tryResult ← onRegion tryBody
    let catchResult ← onRegion catchBody
    let finallyResult ← onRegion finallyBody
    return tryCatch tryResult target catchResult finallyResult
  | withObject body => do
    return withObject (← onRegion body)

/-- The number of bytes of the header, which does not depend on the regions. -/
def headerSize {Region : Type} (context : Context) : Block Region → Nat
  | defineFunction name params _ =>
    context.textSize name + 2 + sumOver context.textSize params + 2
  | defineFunction2 name _ _ params _ =>
    context.textSize name + 5 + sumOver (RegisterParam.size context) params + 2
  | tryCatch _ target _ _ => 7 + target.size context
  | withObject _ => 2

/-- The flag byte of an exception handler: which regions are present and what the target is. -/
def handlerFlags (target : CatchTarget) (catchSize finallySize : UInt16) : UInt8 :=
  (if catchSize = 0 then 0 else 1) + (if finallySize = 0 then 0 else 2) +
    (if target.isRegister then 4 else 0)

/-- Writes the fields of a header whose regions have the given numbers of bytes. -/
def write (context : Context) : Block UInt16 → Writer Unit
  | defineFunction name params bodySize => do
    Writer.text context name
    Writer.word16 (UInt16.ofNat params.length)
    Writer.each (Writer.text context) params
    Writer.word16 bodySize
  | defineFunction2 name registerCount flags params bodySize => do
    Writer.text context name
    Writer.word16 (UInt16.ofNat params.length)
    Writer.byte registerCount
    Writer.word16 flags.bits
    Writer.each (RegisterParam.write context) params
    Writer.word16 bodySize
  | tryCatch trySize target catchSize finallySize => do
    Writer.byte (handlerFlags target catchSize finallySize)
    Writer.word16 trySize
    Writer.word16 catchSize
    Writer.word16 finallySize
    target.write context
  | withObject bodySize => Writer.word16 bodySize

def read (context : Context) : BlockKind → Reader (Block UInt16)
  | .defineFunction => do
    let name ← Reader.text context
    let count ← Reader.word16
    let params ← Reader.repeated (Reader.text context) count.toNat
    let bodySize ← Reader.word16
    return defineFunction name params bodySize
  | .defineFunction2 => do
    let name ← Reader.text context
    let count ← Reader.word16
    let registerCount ← Reader.byte
    let flags : FunctionFlags := ⟨← Reader.word16⟩
    refuseReserved context 0x8E flags.reserved flags.bits
    let params ← Reader.repeated (RegisterParam.read context) count.toNat
    let bodySize ← Reader.word16
    return defineFunction2 name registerCount flags params bodySize
  | .tryCatch => do
    let flags ← Reader.byte
    refuseReserved context 0x8F (flags &&& 0xF8).toUInt16 flags.toUInt16
    let trySize ← Reader.word16
    let catchSize ← Reader.word16
    let finallySize ← Reader.word16
    let target ← CatchTarget.read context (flags &&& 0x04 != 0)
    return tryCatch trySize target catchSize finallySize
  | .withObject => withObject <$> Reader.word16

end Block

end ActionStream
