import ActionStream.Proofs.Action.Encoding
import ActionStream.Proofs.Wire.Appending

/-!
# How encoding can fail

A header whose length can be declared fails only with its texts.  An action can further fail because
its header or one of its regions is too large.  The comparison of a header with its length never
fails, and what has been written before a failure stays in front.
-/

namespace ActionStream

open CodecError

/-- The failures that an encoded tree can have. -/
def CodecError.OfEncoding : CodecError → Prop
  | invalidText _ | bodyTooLarge _ _ => True
  | _ => False

theorem CodecError.OfText.ofEncoding (error : CodecError) (ofText : error.OfText) :
    error.OfEncoding := by
  cases error with
  | invalidText fault => trivial
  | _ => exact ofText.elim

section Fields

variable {context : Context}

theorem PushValue.appends_write {value : PushValue} (short : value.size context ≤ 65535) :
    Writer.Appends OfText (value.write context) := by
  apply (Writer.appends_block [value.tag]).bind
  intro _
  cases value with
  | text value =>
      rw [size] at short
      exact Writer.appends_text (Nat.le_of_add_left_le short)
  | double value =>
      apply (Writer.appends_block (Wire.bytesOf32 value.high)).bind
      intro _
      exact Writer.appends_block (Wire.bytesOf32 value.low)
  | null | undefined => exact moves_pure ()
  | constant index => exact Moves.ite (Writer.appends_block _) (Writer.appends_block _)
  | _ => exact Writer.appends_block _

theorem Writer.appends_texts {texts : List String}
    (short : sumOver context.textSize texts ≤ 65535) :
    Appends OfText (each (text context) texts) := by
  apply appends_each
  intro value member
  exact appends_text (Nat.le_trans (le_sumOver_of_mem member) short)

theorem Plain.appends_write {fields : Plain} (short : fields.headerSize context ≤ 65535) :
    Writer.Appends OfText (fields.write context) := by
  cases fields with
  | getUrl url target =>
      rw [headerSize] at short
      apply (Writer.appends_text (Nat.le_of_add_right_le short)).bind
      intro _
      exact Writer.appends_text (Nat.le_of_add_left_le short)
  | constantPool strings =>
      rw [headerSize] at short
      apply (Writer.appends_block (Wire.bytesOf16 (UInt16.ofNat strings.length))).bind
      intro _
      exact Writer.appends_texts (Nat.le_of_add_left_le short)
  | waitForFrame frame skipCount =>
      apply (Writer.appends_block (Wire.bytesOf16 frame)).bind
      intro _
      exact Writer.appends_block [skipCount]
  | setTarget target => exact Writer.appends_text short
  | gotoLabel label => exact Writer.appends_text short
  | push values =>
      apply Writer.appends_each
      intro value member
      exact PushValue.appends_write (Nat.le_trans (le_sumOver_of_mem member) short)
  | gotoFrame2 play sceneBias =>
      apply (Writer.appends_block [frameFlags play sceneBias]).bind
      intro _
      exact Moves.ite (moves_pure ()) (Writer.appends_block _)
  | _ => exact Writer.appends_block _

theorem RegisterParam.appends_write {param : RegisterParam} (short : param.size context ≤ 65535) :
    Writer.Appends OfText (param.write context) := by
  apply (Writer.appends_block [param.registerByte]).bind
  intro _
  exact Writer.appends_text (Nat.le_of_add_left_le short)

theorem CatchTarget.appends_write {target : CatchTarget} (short : target.size context ≤ 65535) :
    Writer.Appends OfText (target.write context) := by
  cases target with
  | name text => exact Writer.appends_text short
  | register index => exact Writer.appends_block [index.value]

theorem Block.appends_write {sized : Block UInt16} (short : sized.headerSize context ≤ 65535) :
    Writer.Appends OfText (sized.write context) := by
  cases sized with
  | defineFunction name params bodySize =>
      rw [headerSize] at short
      apply (Writer.appends_text (by omega)).bind
      intro _
      apply (Writer.appends_block (Wire.bytesOf16 (UInt16.ofNat params.length))).bind
      intro _
      apply (Writer.appends_texts (by omega)).bind
      intro _
      exact Writer.appends_block (Wire.bytesOf16 bodySize)
  | defineFunction2 name registerCount flags params bodySize =>
      rw [headerSize] at short
      apply (Writer.appends_text (by omega)).bind
      intro _
      apply (Writer.appends_block (Wire.bytesOf16 (UInt16.ofNat params.length))).bind
      intro _
      apply (Writer.appends_block [registerCount]).bind
      intro _
      apply (Writer.appends_block (Wire.bytesOf16 flags.bits)).bind
      intro _
      apply Moves.bind
      · apply Writer.appends_each
        intro param member
        have smaller := @le_sumOver_of_mem _ (RegisterParam.size context) _ _ member
        exact RegisterParam.appends_write (by omega)
      · intro _
        exact Writer.appends_block (Wire.bytesOf16 bodySize)
  | tryCatch trySize target catchSize finallySize =>
      rw [headerSize] at short
      apply (Writer.appends_block [handlerFlags target catchSize finallySize]).bind
      intro _
      apply (Writer.appends_block (Wire.bytesOf16 trySize)).bind
      intro _
      apply (Writer.appends_block (Wire.bytesOf16 catchSize)).bind
      intro _
      apply (Writer.appends_block (Wire.bytesOf16 finallySize)).bind
      intro _
      exact CatchTarget.appends_write (Nat.le_of_add_left_le short)
  | withObject bodySize => exact Writer.appends_block (Wire.bytesOf16 bodySize)

end Fields

namespace Action

variable {context : Context}

theorem appends_regionSize (opcode : UInt8) (region : List Action) :
    Writer.Appends OfEncoding (regionSize context opcode region) :=
  Moves.ite (moves_pure _) (moves_throw trivial)

/-- The sizes of the regions do not change the length of the header. -/
theorem appends_writeBlockFields {fields : Block (List Action)}
    (short : fields.headerSize context ≤ 65535) :
    Writer.Appends OfEncoding (writeBlockFields context fields) := by
  apply (Block.moves_visit (appends_regionSize fields.opcode) fields).bindOk
  intro buffer sized after success
  have sizes := Block.emits_visit (emits_regionSize context fields.opcode) fields
  obtain ⟨-, rfl, -⟩ := (sizes buffer sized after).mp success
  apply Moves.mono _ OfText.ofEncoding
  apply Block.appends_write
  rwa [Block.headerSize_map]

section

variable {admits : CodecError → Prop} {fields : Writer Unit} {possible : Prop}
  {header : List UInt8} {length : Nat}

/-- A header that takes its length is written without a failure of the comparison. -/
theorem appends_compared (opcode : UInt8) (emits : Writer.Emits fields possible header ())
    (settled : header.length = length) (appends : Writer.Appends admits fields) :
    Writer.Appends admits
      (do
        let start := (← get).position
        fields
        let written := (← get).position - start
        if written ≠ length then throw (.lengthMismatch opcode length written)) := by
  intro buffer
  have compared := emits_compared opcode emits settled
  cases outcome : fields buffer with
  | ok _ after =>
      obtain ⟨holds, -, -⟩ := (emits _ _ _).mp outcome
      rw [compared.run holds buffer]
      exact Writer.appends_block header buffer
  | error error after =>
      have start : (get : Writer Buffer) buffer = .ok buffer buffer := rfl
      rw [bind_of_ok start]
      rw [bind_of_error outcome]
      exact appends.of_error outcome

/-- A header fails because its length cannot be declared, or else with its fields. -/
theorem appends_writeHeader (opcode : UInt8) (emits : Writer.Emits fields possible header ())
    (settled : header.length = length)
    (refused : 65535 < length → admits (.bodyTooLarge opcode length))
    (appends : length ≤ 65535 → Writer.Appends admits fields) :
    Writer.Appends admits (writeHeader opcode length fields) := by
  unfold writeHeader
  by_cases long : 65535 < length
  · rw [if_pos long]
    exact moves_throw (refused long)
  · rw [if_neg long]
    apply (Writer.appends_block [opcode]).bind
    intro _
    apply (Writer.appends_block (Wire.bytesOf16 (UInt16.ofNat length))).bind
    intro _
    exact appends_compared opcode emits settled (appends (Nat.le_of_not_lt long))

theorem appends_writeUnknown (opcode : UInt8) (body : List UInt8)
    (refused : 65535 < body.length → admits (.bodyTooLarge opcode body.length)) :
    Writer.Appends admits (writeUnknown opcode body) := by
  apply (Writer.appends_block [opcode]).bind
  intro _
  apply Moves.ite (moves_pure ())
  by_cases long : 65535 < body.length
  · rw [if_pos long]
    exact moves_throw (refused long)
  · rw [if_neg long]
    apply (Writer.appends_block (Wire.bytesOf16 (UInt16.ofNat body.length))).bind
    intro _
    exact Writer.appends_block body

theorem appends_writeAll_of_forall {actions : List Action}
    (each : ∀ action ∈ actions, Writer.Appends admits (write context action)) :
    Writer.Appends admits (writeAll context actions) := by
  induction actions with
  | nil => exact moves_pure ()
  | cons first rest ih =>
      rw [List.forall_mem_cons] at each
      exact each.1.bind fun _ => ih each.2

theorem appends_writeRegions_of_forall {fields : Block (List Action)}
    (each : ∀ region ∈ fields.regions, Writer.Appends admits (writeAll context region)) :
    Writer.Appends admits (writeRegions context fields) := by
  cases fields with
  | tryCatch tryBody target catchBody finallyBody =>
      simp only [Block.regions, List.forall_mem_cons] at each
      exact each.1.bind fun _ => each.2.1.bind fun _ => each.2.2.1
  | _ => exact each _ (List.mem_singleton_self _)

end

/-- Whatever an action fails with is a text or a size, and what was there before it stays. -/
theorem appends_write (context : Context) (action : Action) :
    Writer.Appends OfEncoding (write context action) := by
  induction action using induction with
  | basic op => exact Writer.appends_block [op.opcode]
  | plain fields =>
      apply appends_writeHeader fields.opcode (Plain.emits_write context fields)
        (Plain.length_bytes context fields) fun _ => trivial
      intro short
      exact (Plain.appends_write short).mono OfText.ofEncoding
  | block fields ih =>
      apply Moves.bind
      · apply appends_writeHeader fields.opcode (emits_writeBlockFields context fields)
          (length_sizedHeader context fields) fun _ => trivial
        exact appends_writeBlockFields
      · intro _
        apply appends_writeRegions_of_forall
        intro region member
        exact appends_writeAll_of_forall (ih region member)
  | call =>
      apply (Writer.appends_block [callOpcode]).bind
      intro _
      exact Writer.appends_block (Wire.bytesOf16 0)
  | unknown opcode body => exact appends_writeUnknown opcode body fun _ => trivial

end Action

end ActionStream
