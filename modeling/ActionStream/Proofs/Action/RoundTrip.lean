import ActionStream.Proofs.Action.Encoding
import ActionStream.Proofs.Action.RegionDecoding

/-!
# Decoding what was encoded

What is written for a list of actions is a stream of these actions unless one of them has no form at
all: because it is opaque or has flags that only lenient decoding accepts, or because a property
operand is read as another one.  Together with the limit on nesting this gives the exact conditions
under which encoded actions are decoded again.
-/

namespace ActionStream

namespace Action

/-- An action that can come from a constructor or from a stream: the opcode of an opaque action has
no form of its own, a fixed-form opcode stands alone, and no parameter is bound to register zero. -/
def Producible : Action → Prop
  | block fields => fields.Registered
  | unknown opcode body =>
    isKnownOpcode opcode = false ∧ (isFixedForm opcode = true → body = [])
  | _ => True

/-- An action without an opcode or flag bits that only lenient decoding accepts. -/
def Unreserved : Action → Prop
  | block fields => fields.Unreserved
  | unknown opcode _ => isFixedForm opcode = false
  | _ => True

/-- Every property operand of an action is what its written word is read as. -/
def ReadsBack (context : Context) : Action → Prop
  | plain fields => fields.ReadsBack context
  | _ => True

instance : DecidablePred Producible
  | block fields => inferInstanceAs (Decidable fields.Registered)
  | unknown opcode body =>
    inferInstanceAs
      (Decidable (isKnownOpcode opcode = false ∧ (isFixedForm opcode = true → body = [])))
  | basic _ | plain _ | call => isTrue trivial

instance : DecidablePred Unreserved
  | block fields => inferInstanceAs (Decidable fields.Unreserved)
  | unknown opcode _ => inferInstanceAs (Decidable (isFixedForm opcode = false))
  | basic _ | plain _ | call => isTrue trivial

instance (context : Context) : DecidablePred (ReadsBack context)
  | plain fields => inferInstanceAs (Decidable (fields.ReadsBack context))
  | basic _ | block _ | call | unknown _ _ => isTrue trivial

end Action

namespace ActionForm

variable {context : Context} {Region : Form (List Action)} {bytes : List UInt8} {action : Action}

theorem producible (form : ActionForm context Region bytes action) : action.Producible := by
  cases form with
  | gap allowed small unlisted => exact ⟨isKnownOpcode_eq_false_iff.mpr unlisted, fun _ => rfl⟩
  | block header filled short sized regions =>
      have registered := header.registered
      rw [Block.registered_map] at registered
      exact (Block.registered_map ..).mpr registered
  | unknown large unlisted short =>
      have variableForm := isFixedForm_eq_false_iff.mpr large
      exact ⟨isKnownOpcode_eq_false_iff.mpr unlisted,
        fun isFixed => absurd (variableForm.symm.trans isFixed) Bool.false_ne_true⟩
  | _ => trivial

theorem unreserved (form : ActionForm context Region bytes action) :
    context.lenient = true ∨ action.Unreserved := by
  cases form with
  | gap allowed small unlisted => exact .inl allowed
  | block header filled short sized regions =>
      have unreserved := header.unreserved
      rw [Block.unreserved_map] at unreserved
      exact unreserved.symm.imp_right (Block.unreserved_map ..).mpr
  | unknown large unlisted short => exact .inr (isFixedForm_eq_false_iff.mpr large)
  | _ => exact .inr trivial

theorem readsBack (form : ActionForm context Region bytes action) : action.ReadsBack context := by
  cases form with
  | plain header filled short => exact header.readsBack
  | _ => trivial

end ActionForm

namespace Stream

variable {context : Context} {bytes : List UInt8} {actions : List Action}

/-- What holds of every action with a form holds at every depth of a stream. -/
theorem throughout {holds : Action → Prop}
    (each : ∀ front action, ActionForm context (Stream context) front action → holds action)
    (stream : Stream context bytes actions) : Action.Throughout holds actions := by
  refine Stream.induction (motive := fun _ actions => Action.Throughout holds actions)
    (fun bytes actions sequence => ?_) stream
  induction sequence with
  | nil => exact Action.throughout_nil
  | cons form others ih =>
      refine Action.throughout_cons.mpr ⟨?_, ih⟩
      have topHolds := each _ _ (form.mono fun _ _ both => both.1)
      cases form with
      | block header filled short sized regions =>
          refine Action.throughout_block.mpr ⟨topHolds, ?_⟩
          rw [Block.regions_map, List.forall_mem_map]
          exact fun part member => (regions part member).2
      | _ => exact (Action.throughout_single (by simp)).mpr topHolds

end Stream

namespace Action

variable {context : Context}

/-- An action whose written form is one of its forms, its regions apart. -/
def Readable (context : Context) (action : Action) : Prop :=
  action.Fits context ∧ action.Producible ∧ (context.lenient = true ∨ action.Unreserved) ∧
    action.ReadsBack context

theorem stream_allBytes_of_forall {actions : List Action}
    (each : ∀ action ∈ actions,
      ActionForm context (Stream context) (action.bytes context) action) :
    Stream context (allBytes context actions) actions := by
  rw [allBytes_eq_flatMap, Stream.iff_sequence]
  exact Sequence.of_forall_mem each

/-- The written form of an action with regions is a form of the action that has in their place what
their written forms are streams of. -/
theorem block_form {fields : Block (List Action)} (fits : (block fields).Fits context)
    (registered : fields.Registered) (unreserved : context.lenient = true ∨ fields.Unreserved)
    (others : List Action → List Action)
    (streams : ∀ region ∈ fields.regions,
      Stream context (allBytes context region) (others region)) :
    ActionForm context (Stream context) ((block fields).bytes context)
      (block (fields.map others)) := by
  obtain ⟨writable, short, small⟩ := fits
  have header : BlockHeader context _
      ((fields.map fun region => (allBytes context region, others region)).map
        fun part => UInt16.ofNat part.1.length) :=
    BlockHeader.bytes_form (by simpa using writable) (by simpa using registered)
      (by simpa using unreserved.symm) (by simpa using short)
  have form : ActionForm context (Stream context) _ _ :=
    .block header (.inl rfl) (by simpa [Block.length_bytes] using short)
      (by simpa [length_allBytes] using small) ?_
  · simpa [bytes, regionsBytes_eq_flatMap, length_allBytes, List.flatMap_map] using form
  · rw [Block.regions_map, List.forall_mem_map]
    exact streams

/-- The written form of an action that is readable throughout is one of its forms. -/
theorem bytes_form (action : Action) (readable : Throughout (Readable context) [action]) :
    ActionForm context (Stream context) (action.bytes context) action := by
  induction action using induction with
  | basic op => exact .basic op
  | plain fields =>
      rw [throughout_single (by simp)] at readable
      obtain ⟨⟨writable, short⟩, -, -, readsBack⟩ := readable
      have header := PlainHeader.bytes_form writable readsBack short
      have form : ActionForm context (Stream context) _ _ :=
        .plain header (.inl rfl) (by rwa [List.append_nil, Plain.length_bytes])
      rwa [List.append_nil] at form
  | block fields ih =>
      rw [throughout_block] at readable
      obtain ⟨⟨fits, registered, unreserved, -⟩, inside⟩ := readable
      have form := block_form fits registered unreserved (fun region => region)
        fun region ofFields => stream_allBytes_of_forall fun inner member =>
          ih region ofFields inner member ((inside region ofFields).of_mem member)
      rwa [Block.map_id] at form
  | call => exact .call (Nat.zero_le _)
  | unknown opcode body =>
      rw [throughout_single (by simp)] at readable
      obtain ⟨fits, ⟨unknown, standsAlone⟩, unreserved, -⟩ := readable
      have unlisted := isKnownOpcode_eq_false_iff.mp unknown
      rw [bytes]
      cases fixed : isFixedForm opcode with
      | true =>
          have allowed := unreserved.resolve_right fun notFixed =>
            Bool.false_ne_true (notFixed.symm.trans fixed)
          obtain rfl := standsAlone fixed
          exact .gap allowed (isFixedForm_iff.mp fixed) unlisted
      | false =>
          have short := fits.resolve_left fun isFixed =>
            Bool.false_ne_true (fixed.symm.trans isFixed)
          exact .unknown (isFixedForm_eq_false_iff.mp fixed) unlisted short

theorem stream_allBytes {actions : List Action}
    (readable : Throughout (Readable context) actions) :
    Stream context (allBytes context actions) actions :=
  stream_allBytes_of_forall fun action member => bytes_form action (readable.of_mem member)

/-- What was encoded is decoded again exactly if not too many regions are open at a time, nothing is
in it that only lenient decoding accepts, and every property operand is what its word is read as. -/
theorem decodeAll_encodeAll_iff {actions : List Action} {bytes : List UInt8}
    (producible : Throughout Producible actions) (encoded : encodeAll context actions = .ok bytes) :
    decodeAll context bytes = .ok actions ↔
      listNesting actions ≤ deepestNesting ∧
        (context.lenient = true ∨ Throughout Unreserved actions) ∧
        Throughout (ReadsBack context) actions := by
  obtain ⟨fits, rfl⟩ := (encodeAll_eq_ok_iff ..).mp encoded
  constructor
  · intro decoded
    obtain ⟨stream, nests⟩ := stream_of_decodeAll decoded
    refine ⟨nests, ?_, stream.throughout fun _ _ form => form.readsBack⟩
    cases lenient : context.lenient with
    | true => exact .inl rfl
    | false =>
        refine .inr (stream.throughout fun _ _ form => ?_)
        exact form.unreserved.resolve_left (by simp [lenient])
  · rintro ⟨nests, unreserved, readsBack⟩
    refine decodeAll_of_stream (stream_allBytes fun action within => ?_) nests
    exact ⟨fits action within, producible action within,
      unreserved.imp_right fun throughout => throughout action within, readsBack action within⟩

/-- A function with registers that pushes a property, a wide table index and a truth value, before a
frame call and an opaque action. -/
def registerFunction : List Action :=
  [.block (.defineFunction2 "f" 2 ⟨1⟩ [⟨some ⟨1⟩, "a"⟩]
      [.plain (.push [.property ⟨0⟩, .constant ⟨300⟩, .boolean true]), .basic .endActions]),
    .call, .unknown 0x80 [1, 2]]

/-- The written form of the function for a version with floating-point property words. -/
def registerFunctionBytes : List UInt8 :=
  [0x8E, 12, 0, 102, 0, 1, 0, 2, 1, 0, 1, 97, 0, 14, 0, 0x96, 10, 0, 1, 0, 0, 0, 0, 9, 44, 1, 5, 1,
    0, 0x9E, 0, 0, 0x80, 2, 0, 1, 2]

theorem decodeAll_encodeAll_registerFunction :
    encodeAll { version := 4 } registerFunction = .ok registerFunctionBytes ∧
      decodeAll { version := 4 } registerFunctionBytes = .ok registerFunction := by
  have encoded : encodeAll { version := 4 } registerFunction = .ok registerFunctionBytes := rfl
  exact ⟨encoded, (decodeAll_encodeAll_iff (by decide) encoded).mpr
    ⟨by decide, .inr (by decide), by decide⟩⟩

end Action

end ActionStream
