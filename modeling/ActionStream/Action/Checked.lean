import ActionStream.Action.Basic
/-!
# Checked construction

Where an action is built from numbers and lists that its fields cannot hold or that have no
meaning, the construction fails with the quantity that is out of range.
-/

namespace ActionStream

def frameOfNat (frame : Nat) : Except CodecError UInt16 :=
  if frame ≤ 65535 then .ok (UInt16.ofNat frame)
  else .error (.outOfRange "frame number" frame 0 65535)

def sceneBiasOfInt (sceneBias : Int) : Except CodecError UInt16 :=
  if 0 ≤ sceneBias ∧ sceneBias ≤ 65535 then .ok (UInt16.ofNat sceneBias.toNat)
  else .error (.outOfRange "scene bias" sceneBias 0 65535)

def checkParamCount (count : Nat) : Except CodecError Unit :=
  if count ≤ 65535 then .ok ()
  else .error (.outOfRange "function parameter count" count 0 65535)

/-- Refuses a parameter that is bound to register zero or to one beyond the register count. -/
def checkParamRegister (registerCount : UInt8) (param : RegisterParam) : Except CodecError Unit :=
  match param.register with
  | none => .ok ()
  | some register =>
    if register.value = 0 ∨ registerCount ≤ register.value then
      .error (.outOfRange "parameter register" register.toNat 1 ((registerCount.toNat : Int) - 1))
    else .ok ()

/-- A constant pool has no more strings than the count field can say; the other kinds are not
restricted. -/
def Plain.checked (fields : Plain) : Except CodecError Plain :=
  match fields with
  | .constantPool strings =>
    if strings.length ≤ 65535 then .ok fields
    else .error (.outOfRange "constant pool size" strings.length 0 65535)
  | _ => .ok fields

/-- A function has no more parameters than the count field can say; the flags of a function with
registers are all defined and its parameters are bound to registers that it has. -/
def Block.checked {Region : Type} (fields : Block Region) : Except CodecError (Block Region) :=
  match fields with
  | .defineFunction _ params _ => do
    checkParamCount params.length
    return fields
  | .defineFunction2 _ registerCount flags params _ => do
    checkParamCount params.length
    if flags.reserved ≠ 0 then throw (.invalidFlags 0x8E flags.bits)
    params.forM (checkParamRegister registerCount)
    return fields
  | _ => .ok fields

namespace Action

def greatestUnknownLength (opcode : UInt8) : Nat :=
  if isFixedForm opcode then 0 else 65535

/-- An opaque action, for an opcode without a form of its own. -/
def unknownChecked (opcode : UInt8) (body : List UInt8) : Except CodecError Action :=
  if isKnownOpcode opcode then .error (.reservedOpcode opcode)
  else if body.length ≤ greatestUnknownLength opcode then .ok (unknown opcode body)
  else
    .error (.outOfRange "unknown action body length" body.length 0 (greatestUnknownLength opcode))

end Action

end ActionStream
