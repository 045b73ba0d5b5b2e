import ActionStream.Action.Basic
import ActionStream.Json.Literal
import ActionStream.Json.Value
/-!
# The JSON form of actions

An action is an object with the name of its kind and an object of its fields; kinds without fields
are their name alone.  Double-precision numbers that are not finite have no JSON form and are
written as nothing.
-/

namespace ActionStream

open Json (Value)

namespace Json.Value

def natural (value : Nat) : Value :=
  integer value

def texts (values : List String) : Value :=
  listOf (values.map text)

/-- An object with one member. -/
def tagged (name : String) (content : Value) : Value :=
  objectOf [(name, content)]

end Json.Value

def Binary64.toJson (number : Binary64) : Value :=
  if number.isFinite then .number (Decimal.text Json.numbers number) else .null

def RegisterIndex.toJson (register : RegisterIndex) : Value :=
  .natural register.toNat

def TableIndex.toJson (index : TableIndex) : Value :=
  .natural index.toNat

def Property.toJson (property : Property) : Value :=
  .integer property.toInt

def PushValue.toJson : PushValue → Value
  | text value => .tagged "Str" (.text value)
  | integer value => .tagged "Int" (.integer value.toInt)
  | double value => .tagged "Double" value.toJson
  | boolean value => .tagged "Bool" (.boolean value)
  | null => .text "Null"
  | undefined => .text "Undefined"
  | register index => .tagged "Register" index.toJson
  | constant index => .tagged "Constant" index.toJson
  | property known => .tagged "Property" known.toJson
  | propertyWord word => .tagged "PropertyWord" (.natural word.toNat)

def SendMethod.name : SendMethod → String
  | none => "None"
  | get => "Get"
  | post => "Post"

def SendMethod.toJson (method : SendMethod) : Value :=
  .text method.name

def PlainKind.name : PlainKind → String
  | gotoFrame => "GotoFrame"
  | getUrl => "GetUrl"
  | storeRegister => "StoreRegister"
  | constantPool => "ConstantPool"
  | waitForFrame => "WaitForFrame"
  | setTarget => "SetTarget"
  | gotoLabel => "GotoLabel"
  | waitForFrame2 => "WaitForFrame2"
  | push => "Push"
  | jump => "Jump"
  | getUrl2 => "GetUrl2"
  | branchIf => "If"
  | gotoFrame2 => "GotoFrame2"

def Plain.contentJson : Plain → Value
  | gotoFrame frame => .objectOf [("frame", .natural frame.toNat)]
  | getUrl url target => .objectOf [("url", .text url), ("target", .text target)]
  | storeRegister register => .objectOf [("register", register.toJson)]
  | constantPool strings => .texts strings
  | waitForFrame frame skipCount =>
    .objectOf [("frame", .natural frame.toNat), ("skip_count", .natural skipCount.toNat)]
  | setTarget target => .objectOf [("target", .text target)]
  | gotoLabel label => .objectOf [("label", .text label)]
  | waitForFrame2 skipCount => .objectOf [("skip_count", .natural skipCount.toNat)]
  | push values => .objectOf [("values", .listOf (values.map PushValue.toJson))]
  | jump offset => .objectOf [("offset", .integer offset.toInt)]
  | getUrl2 method loadTarget loadVariables =>
    .objectOf [("method", method.toJson), ("load_target", .boolean loadTarget),
      ("load_variables", .boolean loadVariables)]
  | branchIf offset => .objectOf [("offset", .integer offset.toInt)]
  | gotoFrame2 play sceneBias =>
    .objectOf [("play", .boolean play), ("scene_bias", .natural sceneBias.toNat)]

def FunctionFlags.toJson (flags : FunctionFlags) : Value :=
  .natural flags.bits.toNat

def RegisterParam.toJson (param : RegisterParam) : Value :=
  let register :=
    match param.register with
    | none => Value.null
    | some register => register.toJson
  .objectOf [("register", register), ("name", .text param.name)]

def CatchTarget.toJson : CatchTarget → Value
  | name text => .tagged "Name" (.text text)
  | register index => .tagged "Register" index.toJson

def BlockKind.name : BlockKind → String
  | defineFunction2 => "DefineFunction2"
  | tryCatch => "Try"
  | withObject => "With"
  | defineFunction => "DefineFunction"

/-- The fields of an action with regions in JSON, given the regions in JSON. -/
def Block.contentJson : Block Value → Value
  | defineFunction name params body =>
    .objectOf [("name", .text name), ("params", .texts params), ("body", body)]
  | defineFunction2 name registerCount flags params body =>
    .objectOf [("name", .text name), ("register_count", .natural registerCount.toNat),
      ("flags", flags.toJson), ("params", .listOf (params.map RegisterParam.toJson)),
      ("body", body)]
  | tryCatch tryBody target catchBody finallyBody =>
    .objectOf [("try_body", tryBody), ("catch_target", target.toJson), ("catch_body", catchBody),
      ("finally_body", finallyBody)]
  | withObject body => .objectOf [("body", body)]

def unknownContentJson (opcode : UInt8) (body : List UInt8) : Value :=
  .objectOf [("opcode", .natural opcode.toNat),
    ("body", .listOf (body.map fun byte => .natural byte.toNat))]

namespace Action

mutual

def toJson : Action → Value
  | basic op => .tagged "Basic" (.text op.name)
  | plain fields => .tagged fields.kind.name fields.contentJson
  | block fields => .tagged fields.kind.name (regionsToJson fields).contentJson
  | call => .text "Call"
  | unknown opcode body => .tagged "Unknown" (unknownContentJson opcode body)

def regionsToJson : Block (List Action) → Block Value
  | .defineFunction name params body =>
    .defineFunction name params (.listOf (itemsOnto [] body))
  | .defineFunction2 name registerCount flags params body =>
    .defineFunction2 name registerCount flags params (.listOf (itemsOnto [] body))
  | .tryCatch tryBody target catchBody finallyBody =>
    .tryCatch (.listOf (itemsOnto [] tryBody)) target (.listOf (itemsOnto [] catchBody))
      (.listOf (itemsOnto [] finallyBody))
  | .withObject body => .withObject (.listOf (itemsOnto [] body))

/-- The actions of a list in JSON, after those found so far in reverse order. -/
def itemsOnto (found : List Value) : List Action → List Value
  | [] => found.reverse
  | first :: rest => itemsOnto (first.toJson :: found) rest

end

def allToJson (actions : List Action) : Value :=
  .listOf (itemsOnto [] actions)

def blockContentJson (fields : Block (List Action)) : Value :=
  (regionsToJson fields).contentJson

end Action

end ActionStream
