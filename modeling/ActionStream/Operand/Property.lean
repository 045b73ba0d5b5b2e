import ActionStream.Error
import ActionStream.Number.Binary32
/-!
# Clip properties

A property is named by a code; the first 22 codes have names.  On the wire a code is a 32-bit
word, either the integer itself or the bits of the single-precision number nearest to it.  A word
is read as a code only if writing the code gives the same word again.
-/

namespace ActionStream

/-- The code of a clip property. -/
structure Property where
  code : Int32
  deriving DecidableEq, Repr, Inhabited

namespace Property

/-- The names of the properties, in the order of their codes. -/
def names : List String :=
  ["_x", "_y", "_xscale", "_yscale", "_currentframe", "_totalframes", "_alpha", "_visible",
    "_width", "_height", "_rotation", "_target", "_framesloaded", "_name", "_droptarget", "_url",
    "_highquality", "_focusrect", "_soundbuftime", "_quality", "_xmouse", "_ymouse"]

/-- The greatest code up to which every code is a single-precision number. -/
def greatestCode : Int := 16777216

/-- The property with the given code; negative and large codes are refused. -/
def ofInt (code : Int) : Except CodecError Property :=
  if 0 ≤ code ∧ code ≤ greatestCode then .ok ⟨Int32.ofInt code⟩
  else .error (.outOfRange "property code" code 0 greatestCode)

def toInt (property : Property) : Int :=
  property.code.toInt

def name? (property : Property) : Option String :=
  if property.toInt < 0 then none else names[property.toInt.toNat]?

def ofName? (name : String) : Option Property :=
  (names.findIdx? (· == name)).map fun index => ⟨Int32.ofNat index⟩

def wireWord (property : Property) (asFloat : Bool) : UInt32 :=
  if asFloat then Binary32.ofInt property.code else property.code.toUInt32

/-- The property that a word is read as, if writing it gives the word back. -/
def ofWireWord? (word : UInt32) (asFloat : Bool) : Option Property :=
  let property : Property := ⟨if asFloat then Binary32.toInt word else word.toInt32⟩
  if property.wireWord asFloat = word then some property else none

/-- A property as it is shown: by name, or else by code. -/
def text (property : Property) : String :=
  match property.name? with
  | some name => s!"prop:{name}"
  | none => s!"prop:{property.toInt}"

end Property

end ActionStream
