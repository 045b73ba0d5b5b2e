import ActionStream.Json.Lexeme
import ActionStream.Json.Value
/-!
# Building values from lexemes

A document is read by a machine that keeps the open lists and objects on a stack.  Where the
lexemes stop making sense, the machine hands over what it has read so far, with the open lists and
objects left unclosed.
-/

namespace ActionStream.Json

/-- A list or an object that waits for its next value; items and members are in reverse order. -/
inductive Frame where
  | list (items : List Value)
  | object (members : List (Option String × Value)) (name : Option String)

/-- What the machine has read and what it waits for. -/
inductive State where
  | value (stack : List Frame)
  /-- A list was opened: its first item or its end follows. -/
  | firstItem (stack : List Frame)
  /-- An object was opened: its first name or its end follows. -/
  | firstName (stack : List Frame)
  | name (members : List (Option String × Value)) (stack : List Frame)
  | colon (members : List (Option String × Value)) (name : Option String) (stack : List Frame)
  | complete (value : Value) (stack : List Frame)

/-- A text as a value and what follows it. -/
structure Document where
  root : Value
  /-- Whether something other than blanks follows the value. -/
  trailing : Bool

namespace State

def startValue (stack : List Frame) : Lexeme → Option State
  | .openList => some (firstItem stack)
  | .openObject => some (firstName stack)
  | .null => some (complete .null stack)
  | .boolean flag => some (complete (.boolean flag) stack)
  | .number literal => some (complete (.number literal) stack)
  | .text text => some (complete (.text text) stack)
  | .looseText => some (complete .looseText stack)
  | _ => none

def startMember (members : List (Option String × Value)) (stack : List Frame) :
    Lexeme → Option State
  | .text text => some (colon members (some text) stack)
  | .looseText => some (colon members none stack)
  | _ => none

/-- The state after a lexeme, unless the lexeme makes no sense there. -/
def step : State → Lexeme → Option State
  | value stack, lexeme => startValue stack lexeme
  | firstItem stack, .closeList => some (complete (.list [] true) stack)
  | firstItem stack, lexeme => startValue (.list [] :: stack) lexeme
  | firstName stack, .closeObject => some (complete (.object [] true) stack)
  | firstName stack, lexeme => startMember [] stack lexeme
  | name members stack, lexeme => startMember members stack lexeme
  | colon members memberName stack, .colon => some (value (.object members memberName :: stack))
  | complete item (.list items :: stack), .comma => some (value (.list (item :: items) :: stack))
  | complete item (.list items :: stack), .closeList =>
    some (complete (.list (item :: items).reverse true) stack)
  | complete item (.object members memberName :: stack), .comma =>
    some (name ((memberName, item) :: members) stack)
  | complete item (.object members memberName :: stack), .closeObject =>
    some (complete (.object ((memberName, item) :: members).reverse true) stack)
  | _, _ => none

/-- The value that is left when the stack of open lists and objects breaks off after a value. -/
def breakOff : Value → List Frame → Value
  | item, [] => item
  | item, .list items :: stack => breakOff (.list (item :: items).reverse false) stack
  | item, .object members memberName :: stack =>
    breakOff (.object ((memberName, item) :: members).reverse false) stack

/-- The value that is left when nothing sensible follows. -/
def abandon : State → Value
  | value [] => .broken
  | value (.list items :: stack) => breakOff (.list items.reverse false) stack
  | value (.object members _ :: stack) => breakOff (.object members.reverse false) stack
  | firstItem stack => breakOff (.list [] false) stack
  | firstName stack => breakOff (.object [] false) stack
  | name members stack => breakOff (.object members.reverse false) stack
  | colon members _ stack => breakOff (.object members.reverse false) stack
  | complete item stack => breakOff item stack

def run : State → List Lexeme → Document
  | complete item [], lexemes => ⟨item, !lexemes.isEmpty⟩
  | state, [] => ⟨state.abandon, false⟩
  | state, lexeme :: rest =>
    match state.step lexeme with
    | some next => run next rest
    | none => ⟨state.abandon, false⟩

end State

def Document.ofText (text : String) : Document :=
  State.run (.value []) (lexemes text.toList)

end ActionStream.Json
