import ActionStream.Action.Basic
import ActionStream.Number.Decimal
import ActionStream.Text.Quoted
/-!
# Listings

A listing has a line for every action.  Texts are quoted, except for the names of functions,
parameters and caught values.  The regions of an action stand between braces, indented by two
spaces for every level.
-/

namespace ActionStream

def commaSeparated (items : List String) : String :=
  ", ".intercalate items

/-- Numbers in listings are positional from one ten-thousandth up to below ten to the sixteenth. -/
def Listing.numbers : Decimal.Layout where
  leastPlain := -3
  greatestPlain := 16
  positiveExponentMark := ""
  tie := .upward

def Binary64.text (number : Binary64) : String :=
  if number.isNaN then "NaN"
  else if number.isFinite then Decimal.text Listing.numbers number
  else if number.isNegative then "-inf"
  else "inf"

def PushValue.shown : PushValue → String
  | text value => Text.quoted value
  | integer value => toString value.toInt
  | double value => value.text
  | boolean value => if value then "true" else "false"
  | null => "null"
  | undefined => "undefined"
  | register index => index.text
  | constant index => index.text
  | property known => known.text
  | propertyWord word => "prop:0x" ++ Text.hexPadded .upper 8 word.toNat

/-- A parameter as it is shown: its name, and the register that it is bound to. -/
def RegisterParam.text (param : RegisterParam) : String :=
  match param.register with
  | none => param.name
  | some register => s!"{param.name}={register.text}"

def SendMethod.text : SendMethod → String
  | none => "none"
  | get => "GET"
  | post => "POST"

def Plain.text : Plain → String
  | gotoFrame frame => s!"GotoFrame {frame.toNat}"
  | getUrl url target => s!"GetUrl {Text.quoted url}, {Text.quoted target}"
  | storeRegister register => s!"StoreRegister {register.text}"
  | constantPool [] => "ConstantPool"
  | constantPool strings => s!"ConstantPool {commaSeparated (strings.map Text.quoted)}"
  | waitForFrame frame skipCount => s!"WaitForFrame {frame.toNat}, skip {skipCount.toNat}"
  | setTarget target => s!"SetTarget {Text.quoted target}"
  | gotoLabel label => s!"GotoLabel {Text.quoted label}"
  | waitForFrame2 skipCount => s!"WaitForFrame2 skip {skipCount.toNat}"
  | push values => s!"Push {commaSeparated (values.map PushValue.shown)}"
  | jump offset => s!"Jump {offset.toInt}"
  | getUrl2 method loadTarget loadVariables =>
    s!"GetUrl2 method={method.text}" ++ (if loadTarget then " target" else "") ++
      (if loadVariables then " vars" else "")
  | branchIf offset => s!"If {offset.toInt}"
  | gotoFrame2 play sceneBias =>
    "GotoFrame2" ++ (if play then " play" else "") ++
      (if sceneBias = 0 then "" else s!" bias={sceneBias.toNat}")

/-- The one-line form of an action with regions, which leaves the regions out. -/
def Block.text {Region : Type} : Block Region → String
  | defineFunction name params _ => s!"DefineFunction {name}({commaSeparated params})"
  | defineFunction2 name registerCount flags params _ =>
    s!"DefineFunction2 {name}({commaSeparated (params.map RegisterParam.text)})" ++
      s!" regs={registerCount.toNat} flags=0x{Text.hexPadded .upper 3 flags.bits.toNat}"
  | tryCatch _ (.name text) _ _ => s!"Try catch={Text.quoted text}"
  | tryCatch _ (.register index) _ _ => s!"Try catch={index.text}"
  | withObject _ => "With"

def byteDump (bytes : List UInt8) : String :=
  " ".intercalate (bytes.map fun byte => Text.hexPadded .upper 2 byte.toNat)

namespace Action

def text : Action → String
  | basic op => op.name
  | plain fields => fields.text
  | block fields => fields.text
  | call => "Call"
  | unknown opcode [] => s!"Unknown(0x{Text.hexPadded .upper 2 opcode.toNat})"
  | unknown opcode body =>
    s!"Unknown(0x{Text.hexPadded .upper 2 opcode.toNat}) [{byteDump body}]"

end Action

namespace Listing

def line (depth : Nat) (content : String) : String :=
  "".pushn ' ' (2 * depth) ++ content

/-- The lines of a region between braces, after the lines so far. -/
def between (depth : Nat) (title : String) (region : Array String → Array String)
    (lines : Array String) : Array String :=
  (region (lines.push (line depth (title ++ " \x7b")))).push (line depth "\x7d")

def catchTitle : CatchTarget → String
  | .name text => s!"catch ({text})"
  | .register index => s!"catch ({index.text})"

mutual

def actionOnto (depth : Nat) (lines : Array String) : Action → Array String
  | .block fields => blockOnto depth lines fields
  | .basic op => lines.push (line depth op.name)
  | .plain fields => lines.push (line depth fields.text)
  | .call => lines.push (line depth Action.call.text)
  | .unknown opcode body => lines.push (line depth (Action.unknown opcode body).text)

/-- The lines of an action with regions; the regions for exceptions and for leaving are left out
when they are empty. -/
def blockOnto (depth : Nat) (lines : Array String) : Block (List Action) → Array String
  | .defineFunction name params body =>
    between depth (Block.defineFunction name params ()).text
      (fun lines => actionsOnto (depth + 1) lines body) lines
  | .defineFunction2 name registerCount flags params body =>
    between depth (Block.defineFunction2 name registerCount flags params ()).text
      (fun lines => actionsOnto (depth + 1) lines body) lines
  | .withObject body =>
    between depth "With" (fun lines => actionsOnto (depth + 1) lines body) lines
  | .tryCatch tryBody target catchBody finallyBody =>
    let lines := between depth "try" (fun lines => actionsOnto (depth + 1) lines tryBody) lines
    let lines :=
      if catchBody.isEmpty then lines
      else
        between depth (catchTitle target)
          (fun lines => actionsOnto (depth + 1) lines catchBody) lines
    if finallyBody.isEmpty then lines
    else between depth "finally" (fun lines => actionsOnto (depth + 1) lines finallyBody) lines

def actionsOnto (depth : Nat) (lines : Array String) : List Action → Array String
  | [] => lines
  | first :: rest => actionsOnto depth (actionOnto depth lines first) rest

end

def lines (actions : List Action) : Array String :=
  actionsOnto 0 #[] actions

end Listing

/-- The listing of a list of actions: its lines, each with a line end. -/
def listing (actions : List Action) : String :=
  (Listing.lines actions).foldl (fun text line => text ++ line ++ "\n") ""

end ActionStream
