import ActionStream.Text.Blank
/-!
# The trace switch

Tracing is switched by a text: it is on unless the text is blank or a word for off.  A text that is
more than a word for on is also the filter of what is traced.
-/

namespace ActionStream.Trace

/-- A text without white space at its ends, in lower case as far as it is in Latin letters. -/
def normalized (text : String) : String :=
  (Text.trimmed text).map Char.toLower

def offWords : List String :=
  ["", "0", "false", "off"]

/-- The texts that only switch tracing on, and the empty one. -/
def switchWords : List String :=
  ["", "1", "true", "on"]

def isEnabled (text : String) : Bool :=
  !offWords.contains (normalized text)

/-- The filter that a text gives, if it is more than a switch. -/
def filter? (text : String) : Option String :=
  if switchWords.contains (normalized text) then none else some (Text.trimmed text)

end ActionStream.Trace
