import ActionStream.Configuration.Choice
import ActionStream.Configuration.Setting
/-!
# Configuration files

A configuration file is a settings file with at most one value for each part of a context.  Any
other key, and any value of another kind, makes the file invalid.
-/

namespace ActionStream.Settings

/-- What the lines of a configuration file have fixed so far. -/
structure Draft where
  version : Option UInt8 := none
  layout : Option TextLayout := none
  lenient : Option Bool := none
  layoutAnnounced : Bool := false
  /-- Whether the layout has a heading of its own, so that one announcing it may still follow. -/
  layoutByHeading : Bool := false
  heading : List String := []

namespace Draft

def setVersion (draft : Draft) : Setting → Option Draft
  | .integer value =>
    if draft.version.isNone ∧ 0 ≤ value ∧ value ≤ 255 then
      some { draft with version := some (UInt8.ofNat value.toNat) }
    else none
  | _ => none

def setLayout (draft : Draft) (name : String) : Option Draft := do
  let layout ← TextLayout.ofName? name
  if draft.layout.isNone then some { draft with layout := some layout } else none

def setLenient (draft : Draft) : Setting → Option Draft
  | .flag value =>
    if draft.lenient.isNone then some { draft with lenient := some value } else none
  | _ => none

def assign (draft : Draft) (path : List String) (value : Setting) : Option Draft :=
  match path, value with
  | ["version"], value => draft.setVersion value
  | ["lenient"], value => draft.setLenient value
  | ["text_layout"], .text name => if draft.layoutAnnounced then none else draft.setLayout name
  | ["text_layout"], .named name => if draft.layoutAnnounced then none else draft.setLayout name
  | ["text_layout", name], .nothing => draft.setLayout name
  | _, _ => none

def addLine (draft : Draft) : Line → Option Draft
  | .assignment path value => draft.assign (draft.heading ++ path) value
  | .heading ["text_layout"] =>
    if draft.layoutAnnounced || (draft.layout.isSome && !draft.layoutByHeading) then none
    else some { draft with layoutAnnounced := true, heading := ["text_layout"] }
  | .heading ["text_layout", name] =>
    (draft.setLayout name).map fun draft =>
      { draft with layoutByHeading := true, heading := ["text_layout", name] }
  | .heading _ => none

/-- The context of a draft; what is not fixed has its default. -/
def finish (draft : Draft) : Option Context :=
  if draft.layoutAnnounced && draft.layout.isNone then none
  else
    some
      { version := draft.version.getD defaultVersion
        layout := draft.layout.getD .nulTerminated
        lenient := draft.lenient.getD false }

end Draft

/-- The context that a configuration file describes. -/
def contextOf? (text : String) : Option Context := do
  let lines ← lines? text
  let draft ← lines.foldlM Draft.addLine {}
  draft.finish

end ActionStream.Settings
