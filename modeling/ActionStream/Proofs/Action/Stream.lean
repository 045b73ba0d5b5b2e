import ActionStream.Action.Size
import ActionStream.Proofs.Action.Opcodes
import ActionStream.Proofs.Action.Tree

/-!
# The grammar of a stream

A stream is a sequence of actions.  An action is a fixed-form opcode, or an opcode, a length field,
the header that the field counts, and the regions that the header announces; a region is a stream of
exactly the announced number of bytes.  The grammar does not limit how deep regions nest.
-/

namespace ActionStream

/-- A length field and the bytes that it counts. -/
def counted (header : List UInt8) : List UInt8 :=
  Wire.bytesOf16 (UInt16.ofNat header.length) ++ header

/-- An opcode, a length field and the bytes that it counts. -/
def headed (opcode : UInt8) (header : List UInt8) : List UInt8 :=
  opcode :: counted header

@[simp]
theorem length_headed (opcode : UInt8) (header : List UInt8) :
    (headed opcode header).length = lengthHeaderSize + header.length := by
  simp only [headed, counted, lengthHeaderSize, List.length_cons, List.length_append,
    Wire.length_bytesOf16]
  omega

/-- The forms of actions, where `Region` says which byte strings are regions.  The actions with
regions hold each region as its bytes and its actions. -/
inductive ActionForm (context : Context) (Region : Form (List Action)) : Form Action
  | basic (op : BasicOp) : ActionForm context Region [op.opcode] (.basic op)
  | gap {opcode : UInt8} (allowed : context.lenient = true) (small : opcode ≤ 0x7F)
      (unlisted : Unlisted opcode) :
      ActionForm context Region [opcode] (.unknown opcode [])
  | plain {front extra : List UInt8} {fields : Plain} (header : PlainHeader context front fields)
      (filled : extra = [] ∨ (context.lenient = true ∧ fields.kind ≠ .push))
      (short : (front ++ extra).length ≤ 65535) :
      ActionForm context Region (headed fields.opcode (front ++ extra)) (.plain fields)
  | block {front extra : List UInt8} {parts : Block (List UInt8 × List Action)}
      (header : BlockHeader context front (parts.map fun part => UInt16.ofNat part.1.length))
      (filled : extra = [] ∨ context.lenient = true) (short : (front ++ extra).length ≤ 65535)
      (sized : ∀ part ∈ parts.regions, part.1.length ≤ 65535)
      (regions : ∀ part ∈ parts.regions, Region part.1 part.2) :
      ActionForm context Region
        (headed parts.opcode (front ++ extra) ++ parts.regions.flatMap fun part => part.1)
        (.block (parts.map fun part => part.2))
  | call {body : List UInt8} (short : body.length ≤ 65535) :
      ActionForm context Region (headed callOpcode body) .call
  | unknown {opcode : UInt8} {body : List UInt8} (large : 0x80 ≤ opcode)
      (unlisted : Unlisted opcode) (short : body.length ≤ 65535) :
      ActionForm context Region (headed opcode body) (.unknown opcode body)

/-- The byte strings that stand for lists of actions. -/
inductive Stream (context : Context) : Form (List Action)
  | nil : Stream context [] []
  | cons {front rest : List UInt8} {action : Action} {actions : List Action}
      (first : ActionForm context (Stream context) front action)
      (others : Stream context rest actions) : Stream context (front ++ rest) (action :: actions)

namespace ActionForm

variable {context : Context} {Region Other : Form (List Action)} {bytes : List UInt8}
  {action : Action}

theorem mono (weaken : ∀ front actions, Region front actions → Other front actions)
    (form : ActionForm context Region bytes action) : ActionForm context Other bytes action := by
  cases form with
  | basic op => exact .basic op
  | gap allowed small unlisted => exact .gap allowed small unlisted
  | plain header filled short => exact .plain header filled short
  | block header filled short sized regions =>
      exact .block header filled short sized fun part member => weaken _ _ (regions part member)
  | call short => exact .call short
  | unknown large unlisted short => exact .unknown large unlisted short

theorem nonempty (bytes : List UInt8) (action : Action)
    (form : ActionForm context Region bytes action) : bytes ≠ [] := by
  cases form <;> exact List.cons_ne_nil _ _

/-- A bound on the regions of an action that holds of the grammar's regions. -/
theorem and_nesting_iff {levels : Nat} :
    ActionForm context
        (fun front actions => Region front actions ∧ Action.openNesting actions ≤ levels) bytes
        action ↔
      ActionForm context Region bytes action ∧ action.nesting ≤ levels := by
  constructor
  · intro form
    refine ⟨form.mono fun _ _ both => both.1, ?_⟩
    cases form with
    | block header filled short sized regions =>
        rw [Action.nesting_block_le_iff, Block.regions_map, List.forall_mem_map]
        exact fun part member => (regions part member).2
    | _ => exact Nat.zero_le _
  · rintro ⟨form, nests⟩
    cases form with
    | basic op => exact .basic op
    | gap allowed small unlisted => exact .gap allowed small unlisted
    | plain header filled short => exact .plain header filled short
    | block header filled short sized regions =>
        rw [Action.nesting_block_le_iff, Block.regions_map, List.forall_mem_map] at nests
        exact .block header filled short sized fun part member =>
          ⟨regions part member, nests part member⟩
    | call short => exact .call short
    | unknown large unlisted short => exact .unknown large unlisted short

end ActionForm

namespace Stream

variable {context : Context} {bytes : List UInt8} {actions : List Action}

theorem iff_sequence :
    Stream context bytes actions ↔
      Sequence (ActionForm context (Stream context)) bytes actions := by
  constructor
  · intro stream
    induction actions generalizing bytes with
    | nil =>
        cases stream with
        | nil => exact .nil
    | cons action actions ih =>
        cases stream with
        | cons first others => exact .cons first (ih others)
  · intro sequence
    induction sequence with
    | nil => exact .nil
    | cons first others ih => exact .cons first ih

theorem nil_iff : Stream context [] actions ↔ actions = [] := by
  rw [iff_sequence, Sequence.nil_iff ActionForm.nonempty]

/-- What holds of a stream whenever it holds of the regions of its actions holds of every
stream. -/
theorem induction {motive : Form (List Action)}
    (step : ∀ bytes actions,
      Sequence (ActionForm context fun front inner =>
        Stream context front inner ∧ motive front inner) bytes actions → motive bytes actions)
    (stream : Stream context bytes actions) : motive bytes actions := by
  refine step _ _ (Stream.rec
    (motive_1 := fun bytes actions _ => Sequence (ActionForm context fun front inner =>
      Stream context front inner ∧ motive front inner) bytes actions)
    (motive_2 := fun bytes action _ => ActionForm context (fun front inner =>
      Stream context front inner ∧ motive front inner) bytes action)
    .nil (fun _ _ first others => .cons first others) .basic .gap .plain ?_ .call .unknown stream)
  intro front extra parts header filled short sized regions ih
  refine .block header filled short sized fun part member => ⟨regions part member, ?_⟩
  exact step _ _ (ih part member)

end Stream

end ActionStream
