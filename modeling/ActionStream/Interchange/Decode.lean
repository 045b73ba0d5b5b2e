import ActionStream.Action.Checked
import ActionStream.Interchange.Encode
import ActionStream.Json.Decoder
/-!
# Reading actions from JSON

Every value is read under the rules that also hold when it is built: indices and codes are in
range, counts fit their fields, flags are defined, parameters are bound to registers that exist, and
opaque actions have opcodes without a form of their own.
-/

namespace ActionStream

open Json (Decoder RecordForm Refusal Value deepestOpen)
open Json.RecordForm (required defaulted done)

def RegisterIndex.decoder : Decoder RegisterIndex :=
  Decoder.checked (Decoder.natural 4294967295) RegisterIndex.ofNat

def TableIndex.decoder : Decoder TableIndex :=
  Decoder.checked (Decoder.natural 4294967295) TableIndex.ofNat

def Property.decoder : Decoder Property :=
  Decoder.checked (Decoder.integer (-9223372036854775808) 9223372036854775807) Property.ofInt

def PushValue.contentDecoder (name : String) : Option (Decoder PushValue) :=
  if name = "Str" then some (.mapped Decoder.text text)
  else if name = "Int" then some (.mapped Decoder.signed32 integer)
  else if name = "Double" then some (.mapped Decoder.double double)
  else if name = "Bool" then some (.mapped Decoder.boolean boolean)
  else if name = "Register" then some (.mapped RegisterIndex.decoder register)
  else if name = "Constant" then some (.mapped TableIndex.decoder constant)
  else if name = "Property" then some (.mapped Property.decoder property)
  else if name = "PropertyWord" then some (.mapped Decoder.word32 propertyWord)
  else none

def PushValue.ofName? (name : String) : Option PushValue :=
  if name = "Null" then some null
  else if name = "Undefined" then some undefined
  else none

def PushValue.decoder : Decoder PushValue :=
  Decoder.choice PushValue.ofName? PushValue.contentDecoder

def SendMethod.ofName? (name : String) : Option SendMethod :=
  [SendMethod.none, SendMethod.get, SendMethod.post].find? fun method => method.name == name

def SendMethod.decoder : Decoder SendMethod :=
  Decoder.alternative SendMethod.ofName?

def BasicOp.decoder : Decoder BasicOp :=
  Decoder.alternative BasicOp.ofName?

def PlainKind.ofName? (name : String) : Option PlainKind :=
  PlainKind.all.find? fun kind => kind.name == name

def Plain.contentDecoder : PlainKind → Decoder Plain
  | .gotoFrame =>
    (required "frame" Decoder.word16 done).decoder fun (frame, _) => gotoFrame frame
  | .getUrl =>
    (required "url" Decoder.text (required "target" Decoder.text done)).decoder
      fun (url, target, _) => getUrl url target
  | .storeRegister =>
    (required "register" RegisterIndex.decoder done).decoder
      fun (register, _) => storeRegister register
  | .constantPool =>
    Decoder.checked (Decoder.listOf Decoder.text) fun strings => (constantPool strings).checked
  | .waitForFrame =>
    (required "frame" Decoder.word16 (required "skip_count" Decoder.word8 done)).decoder
      fun (frame, skipCount, _) => waitForFrame frame skipCount
  | .setTarget =>
    (required "target" Decoder.text done).decoder fun (target, _) => setTarget target
  | .gotoLabel =>
    (required "label" Decoder.text done).decoder fun (label, _) => gotoLabel label
  | .waitForFrame2 =>
    (required "skip_count" Decoder.word8 done).decoder
      fun (skipCount, _) => waitForFrame2 skipCount
  | .push =>
    (required "values" (Decoder.listOf PushValue.decoder) done).decoder
      fun (values, _) => push values
  | .jump =>
    (required "offset" Decoder.signed16 done).decoder fun (offset, _) => jump offset
  | .getUrl2 =>
    (required "method" SendMethod.decoder (required "load_target" Decoder.boolean
      (required "load_variables" Decoder.boolean done))).decoder
      fun (method, loadTarget, loadVariables, _) => getUrl2 method loadTarget loadVariables
  | .branchIf =>
    (required "offset" Decoder.signed16 done).decoder fun (offset, _) => branchIf offset
  | .gotoFrame2 =>
    (required "play" Decoder.boolean (required "scene_bias" Decoder.word16 done)).decoder
      fun (play, sceneBias, _) => gotoFrame2 play sceneBias

def FunctionFlags.decoder : Decoder FunctionFlags :=
  Decoder.mapped Decoder.word16 fun bits => ⟨bits⟩

def RegisterParam.decoder : Decoder RegisterParam :=
  (defaulted "register" (Decoder.optional RegisterIndex.decoder) none
    (required "name" Decoder.text done)).decoder
    fun (register, name, _) => ⟨register, name⟩

def CatchTarget.contentDecoder (name : String) : Option (Decoder CatchTarget) :=
  if name = "Name" then some (.mapped Decoder.text CatchTarget.name)
  else if name = "Register" then some (.mapped RegisterIndex.decoder CatchTarget.register)
  else none

def CatchTarget.decoder : Decoder CatchTarget :=
  Decoder.choice (fun _ => none) CatchTarget.contentDecoder

def BlockKind.ofName? (name : String) : Option BlockKind :=
  BlockKind.all.find? fun kind => kind.name == name

/-- Reads the fields of an action with regions, given a decoder for regions; the rules for building
one are not applied. -/
def Block.draftDecoder (region : Decoder (List Action)) : BlockKind → Decoder (Block (List Action))
  | .defineFunction =>
    (required "name" Decoder.text (required "params" (Decoder.listOf Decoder.text)
      (required "body" region done))).decoder
      fun (name, params, body, _) => defineFunction name params body
  | .defineFunction2 =>
    (required "name" Decoder.text (required "register_count" Decoder.word8
      (defaulted "flags" FunctionFlags.decoder FunctionFlags.none
        (required "params" (Decoder.listOf RegisterParam.decoder)
          (required "body" region done))))).decoder
      fun (name, registerCount, flags, params, body, _) =>
        defineFunction2 name registerCount flags params body
  | .tryCatch =>
    (required "try_body" region (defaulted "catch_target" CatchTarget.decoder (.name "")
      (defaulted "catch_body" region [] (defaulted "finally_body" region [] done)))).decoder
      fun (tryBody, target, catchBody, finallyBody, _) =>
        tryCatch tryBody target catchBody finallyBody
  | .withObject => (required "body" region done).decoder fun (body, _) => withObject body

def Block.contentDecoder (region : Decoder (List Action)) (kind : BlockKind) :
    Decoder (Block (List Action)) :=
  Decoder.checked (Block.draftDecoder region kind) Block.checked

namespace Action

def unknownDecoder : Decoder Action :=
  (required "opcode" Decoder.word8
    (defaulted "body" (Decoder.listOf Decoder.word8) [] done)).decoderOf false
    fun (opcode, body, _) => unknownChecked opcode body

def contentDecoder (region : Decoder (List Action)) (name : String) : Option (Decoder Action) :=
  if name = "Basic" then some (.mapped BasicOp.decoder basic)
  else if name = "Unknown" then some unknownDecoder
  else
    match PlainKind.ofName? name, BlockKind.ofName? name with
    | some kind, _ => some (.mapped (Plain.contentDecoder kind) plain)
    | none, some kind => some (.mapped (Block.contentDecoder region kind) block)
    | none, none => none

def decoderWith (region : Decoder (List Action)) : Decoder Action :=
  Decoder.choice (fun name => if name = "Call" then some call else none) (contentDecoder region)

/-- Reads a list of actions with at most the given number of lists inside each other. -/
def nestedDecoder : Nat → Decoder (List Action)
  | 0 => fun _ _ => .error .malformed
  | lists + 1 => Decoder.listOf (decoderWith (nestedDecoder lists))

/-- Reads a list of actions; each list inside another one uses up levels, so the number of levels
bounds their nesting. -/
def listDecoder : Decoder (List Action) :=
  fun levels => nestedDecoder levels levels

def decoder : Decoder Action :=
  fun levels => decoderWith (nestedDecoder levels) levels

/-- The actions of a JSON text. -/
def ofJsonText (text : String) : Except Refusal (List Action) :=
  Json.decodeText listDecoder text

end Action

end ActionStream
