import ActionStream.Action.Block
import ActionStream.Opcode
/-!
# Actions

An action is a basic operation, an action with a header of one of seventeen kinds, a frame call, or
an opaque action: an opcode without a form of its own, kept together with its bytes.  The regions
of an action are lists of actions, so a list of actions is a forest.
-/

namespace ActionStream

/-- An action of a stream. -/
inductive Action where
  | basic (op : BasicOp)
  | plain (fields : Plain)
  | block (fields : Block (List Action))
  /-- Call the frame on the stack; a length field without a header. -/
  | call
  /-- An opcode without a form of its own, with its bytes. -/
  | unknown (opcode : UInt8) (body : List UInt8)
  deriving Inhabited, Repr

def callOpcode : UInt8 := 0x9E

/-- Whether an opcode has a form of its own. -/
def isKnownOpcode (opcode : UInt8) : Bool :=
  if isFixedForm opcode then (BasicOp.ofOpcode? opcode).isSome
  else (PlainKind.ofOpcode? opcode).isSome || (BlockKind.ofOpcode? opcode).isSome ||
    opcode == callOpcode

namespace Action

def opcode : Action → UInt8
  | basic op => op.opcode
  | plain fields => fields.opcode
  | block fields => fields.opcode
  | call => callOpcode
  | unknown opcode _ => opcode

def isBasic : Action → Bool
  | basic _ => true
  | _ => false

mutual

def same : Action → Action → Bool
  | basic first, basic second => first == second
  | plain first, plain second => first == second
  | block first, block second => sameBlock first second
  | call, call => true
  | unknown firstOpcode firstBody, unknown secondOpcode secondBody =>
    firstOpcode == secondOpcode && firstBody == secondBody
  | _, _ => false

def sameBlock : Block (List Action) → Block (List Action) → Bool
  | .defineFunction firstName firstParams firstBody,
      .defineFunction secondName secondParams secondBody =>
    firstName == secondName && firstParams == secondParams && sameAll firstBody secondBody
  | .defineFunction2 firstName firstCount firstFlags firstParams firstBody,
      .defineFunction2 secondName secondCount secondFlags secondParams secondBody =>
    firstName == secondName && firstCount == secondCount && firstFlags == secondFlags &&
      firstParams == secondParams && sameAll firstBody secondBody
  | .tryCatch firstTry firstTarget firstCatch firstFinally,
      .tryCatch secondTry secondTarget secondCatch secondFinally =>
    firstTarget == secondTarget && sameAll firstTry secondTry &&
      sameAll firstCatch secondCatch && sameAll firstFinally secondFinally
  | .withObject firstBody, .withObject secondBody => sameAll firstBody secondBody
  | _, _ => false

def sameAll : List Action → List Action → Bool
  | [], [] => true
  | first :: firsts, second :: seconds => if same first second then sameAll firsts seconds else false
  | _, _ => false

end

instance : BEq Action := ⟨same⟩

end Action

end ActionStream
