import ActionStream.Action.Basic
/-!
# The size of encoded actions

The number of bytes that actions take, computed from their fields.  The size of a region is the sum
of the sizes of its actions; it has to fit the 16-bit field of the header that announces it.
-/

namespace ActionStream

/-- The opcode and the length field. -/
def lengthHeaderSize : Nat := 3

namespace Action

mutual

/-- The number of bytes of an action with its regions. -/
def size (context : Context) : Action → Nat
  | basic _ => 1
  | plain fields => lengthHeaderSize + fields.headerSize context
  | block fields => lengthHeaderSize + fields.headerSize context + regionsSize context fields
  | call => lengthHeaderSize
  | unknown opcode body => if isFixedForm opcode then 1 else lengthHeaderSize + body.length

def regionsSize (context : Context) : Block (List Action) → Nat
  | .defineFunction _ _ body => sizeOnto context 0 body
  | .defineFunction2 _ _ _ _ body => sizeOnto context 0 body
  | .tryCatch tryBody _ catchBody finallyBody =>
    sizeOnto context 0 tryBody + sizeOnto context 0 catchBody + sizeOnto context 0 finallyBody
  | .withObject body => sizeOnto context 0 body

/-- The number of bytes of a list of actions, added to a number. -/
def sizeOnto (context : Context) (total : Nat) : List Action → Nat
  | [] => total
  | first :: rest => sizeOnto context (total + first.size context) rest

end

def totalSize (context : Context) (actions : List Action) : Nat :=
  sizeOnto context 0 actions

theorem sizeOnto_eq (context : Context) (total : Nat) (actions : List Action) :
    sizeOnto context total actions = total + totalSize context actions := by
  induction actions generalizing total with
  | nil => simp [totalSize, sizeOnto]
  | cons first rest induction =>
    rw [totalSize, sizeOnto, sizeOnto, induction, induction (0 + _)]
    omega

theorem totalSize_nil (context : Context) : totalSize context [] = 0 := rfl

theorem totalSize_cons (context : Context) (first : Action) (rest : List Action) :
    totalSize context (first :: rest) = first.size context + totalSize context rest := by
  rw [totalSize, sizeOnto, sizeOnto_eq]
  omega

end Action

end ActionStream
