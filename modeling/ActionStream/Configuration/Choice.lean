import ActionStream.Context
/-!
# Configurations

A configuration is a context whose parts may be left out.  The names of the layouts are the same
in every notation for configurations, and single parts may be overridden afterwards.
-/

namespace ActionStream

def TextLayout.name : TextLayout → String
  | nulTerminated => "nul-terminated"
  | lengthPrefixed => "length-prefixed"

def TextLayout.ofName? (name : String) : Option TextLayout :=
  [nulTerminated, lengthPrefixed].find? fun layout => layout.name == name

/-- The parts of a context that a request fixes by itself. -/
structure Overrides where
  version : Option UInt8 := none
  /-- Whether decoding is lenient in any case. -/
  lenient : Bool := false
  /-- Whether texts are length-prefixed in any case. -/
  lengthPrefixed : Bool := false
  deriving DecidableEq, Repr, Inhabited

/-- A context with the parts that a request fixes. -/
def Context.overridden (context : Context) (overrides : Overrides) : Context where
  version := overrides.version.getD context.version
  layout := if overrides.lengthPrefixed then .lengthPrefixed else context.layout
  lenient := context.lenient || overrides.lenient

end ActionStream
