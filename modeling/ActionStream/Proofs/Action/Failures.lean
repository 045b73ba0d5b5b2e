import ActionStream.Proofs.Action.RegionDecoding
import ActionStream.Proofs.Wire.Confined

/-!
# How decoding can fail

A header can only fail with its fields: because it ends, because of a tag or flags without a meaning
or because of a text.  An action and its regions can further fail with an opcode, with a header that
is longer than its fields and with regions that end or nest where they must not.  The numbers in a
failure say why: what was read of an overrun region is longer than what was declared.
-/

namespace ActionStream

namespace CodecError

/-- The failures that the fields of a header can have. -/
def OfFields : CodecError → Prop
  | unexpectedEnd _ | unknownPushTag _ | invalidText _ | invalidFlags _ _ => True
  | _ => False

/-- The failures that a stream can have, with what their numbers say. -/
def OfStream : CodecError → Prop
  | unexpectedEnd _ | unknownBasicOpcode _ | unknownPushTag _ | bodyLengthMismatch _ _ _
  | invalidText _ | invalidFlags _ _ => True
  | frameOverrun limit consumed => limit < consumed
  | nestingTooDeep limit => limit = deepestNesting
  | _ => False

theorem ofFields_end (item : String) : OfFields (unexpectedEnd item) :=
  trivial

theorem ofStream_end (item : String) : OfStream (unexpectedEnd item) :=
  trivial

theorem OfFields.ofStream (error : CodecError) (ofFields : error.OfFields) : error.OfStream := by
  cases error with
  | unexpectedEnd _ | unknownPushTag _ | invalidText _ | invalidFlags _ _ => trivial
  | _ => exact ofFields.elim

end CodecError

open CodecError

section Fields

theorem Reader.confined_text (context : Context) : Confined OfFields (text context) := by
  apply (confined_textBytes ofFields_end context.layout).bind
  intro raw
  apply confined_ofExcept
  intro error failure
  unfold TextEncoding.decode at failure
  split at failure
  · cases failure
  · split at failure
    · cases failure
    · cases failure
      trivial

theorem confined_refuseReserved (context : Context) (opcode : UInt8) (reserved flags : UInt16) :
    Reader.Confined OfFields (refuseReserved context opcode reserved flags) :=
  .ite (moves_throw trivial) (moves_pure ())

theorem PushValue.confined_readValue (context : Context) (tag : UInt8) :
    Reader.Confined OfFields (readValue context tag) := by
  unfold readValue
  apply Moves.ite (Reader.confined_text context).map
  apply Moves.ite (Reader.confined_word32As ofFields_end "u32").map
  apply Moves.ite (moves_pure null)
  apply Moves.ite (moves_pure undefined)
  apply Moves.ite (Reader.confined_byte ofFields_end).map
  apply Moves.ite (Reader.confined_byte ofFields_end).map
  apply Moves.ite
  · apply (Reader.confined_word32As ofFields_end "u32").bind
    intro high
    apply (Reader.confined_word32As ofFields_end "u32").bind
    intro low
    exact moves_pure (double (Binary64.ofWords high low))
  apply Moves.ite (Reader.confined_word32As ofFields_end "i32").map.map
  apply Moves.ite (Reader.confined_byte ofFields_end).map
  apply Moves.ite (Reader.confined_word16As ofFields_end "u16").map
  exact moves_throw trivial

theorem PushValue.confined_read (context : Context) : Reader.Confined OfFields (read context) := by
  apply (Reader.confined_byte ofFields_end).bind
  intro tag
  exact confined_readValue context tag

theorem Plain.confined_readRequest (context : Context) :
    Reader.Confined OfFields (readRequest context) := by
  apply (Reader.confined_byte ofFields_end).bind
  intro flags
  apply (confined_refuseReserved context 0x9A _ _).bind
  intro _
  split
  · exact moves_pure _
  · exact moves_throw trivial

theorem Plain.confined_readFrameJump (context : Context) :
    Reader.Confined OfFields (readFrameJump context) := by
  apply (Reader.confined_byte ofFields_end).bind
  intro flags
  apply (confined_refuseReserved context 0x9F _ _).bind
  intro _
  apply Moves.ite
  · exact (moves_pure 0).bind fun _ => moves_pure _
  · exact (Reader.confined_word16As ofFields_end "u16").bind fun _ => moves_pure _

theorem Plain.confined_read (context : Context) (kind : PlainKind) :
    Reader.Confined OfFields (read context kind) := by
  cases kind with
  | gotoFrame => exact (Reader.confined_word16As ofFields_end "u16").map
  | getUrl =>
      apply (Reader.confined_text context).bind
      intro url
      apply (Reader.confined_text context).bind
      intro target
      exact moves_pure (getUrl url target)
  | constantPool =>
      apply (Reader.confined_word16As ofFields_end "u16").bind
      intro count
      exact (Reader.confined_repeatedOnto (Reader.confined_text context) [] count.toNat).map
  | waitForFrame =>
      apply (Reader.confined_word16As ofFields_end "u16").bind
      intro frame
      apply (Reader.confined_byte ofFields_end).bind
      intro skipCount
      exact moves_pure (waitForFrame frame skipCount)
  | storeRegister => exact (Reader.confined_byte ofFields_end).map
  | setTarget => exact (Reader.confined_text context).map
  | gotoLabel => exact (Reader.confined_text context).map
  | waitForFrame2 => exact (Reader.confined_byte ofFields_end).map
  | push => exact (Reader.confined_untilEnd (PushValue.confined_read context)).map
  | jump => exact (Reader.confined_word16As ofFields_end "i16").map.map
  | getUrl2 => exact confined_readRequest context
  | branchIf => exact (Reader.confined_word16As ofFields_end "i16").map.map
  | gotoFrame2 => exact confined_readFrameJump context

theorem RegisterParam.confined_read (context : Context) :
    Reader.Confined OfFields (read context) := by
  apply (Reader.confined_byte ofFields_end).bind
  intro register
  apply (Reader.confined_text context).bind
  intro name
  exact moves_pure _

theorem CatchTarget.confined_read (context : Context) (inRegister : Bool) :
    Reader.Confined OfFields (read context inRegister) :=
  .ite (Reader.confined_byte ofFields_end).map (Reader.confined_text context).map

theorem Block.confined_read (context : Context) (kind : BlockKind) :
    Reader.Confined OfFields (read context kind) := by
  cases kind with
  | defineFunction =>
      apply (Reader.confined_text context).bind
      intro name
      apply (Reader.confined_word16As ofFields_end "u16").bind
      intro count
      apply (Reader.confined_repeatedOnto (Reader.confined_text context) [] count.toNat).bind
      intro params
      apply (Reader.confined_word16As ofFields_end "u16").bind
      intro bodySize
      exact moves_pure (defineFunction name params bodySize)
  | defineFunction2 =>
      apply (Reader.confined_text context).bind
      intro name
      apply (Reader.confined_word16As ofFields_end "u16").bind
      intro count
      apply (Reader.confined_byte ofFields_end).bind
      intro registerCount
      apply (Reader.confined_word16As ofFields_end "u16").bind
      intro bits
      apply (confined_refuseReserved context 0x8E _ _).bind
      intro _
      apply (Reader.confined_repeatedOnto (RegisterParam.confined_read context) [] count.toNat).bind
      intro params
      apply (Reader.confined_word16As ofFields_end "u16").bind
      intro bodySize
      exact moves_pure (defineFunction2 name registerCount ⟨bits⟩ params bodySize)
  | tryCatch =>
      apply (Reader.confined_byte ofFields_end).bind
      intro flags
      apply (confined_refuseReserved context 0x8F _ _).bind
      intro _
      apply (Reader.confined_word16As ofFields_end "u16").bind
      intro trySize
      apply (Reader.confined_word16As ofFields_end "u16").bind
      intro catchSize
      apply (Reader.confined_word16As ofFields_end "u16").bind
      intro finallySize
      apply (CatchTarget.confined_read context (flags &&& 0x04 != 0)).bind
      intro target
      exact moves_pure (tryCatch trySize target catchSize finallySize)
  | withObject => exact (Reader.confined_word16As ofFields_end "u16").map

end Fields

namespace Action

theorem confined_closeHeader (context : Context) (opcode : UInt8) (declared : Nat) (left : Cursor) :
    Reader.Confined OfStream (closeHeader context opcode declared left) :=
  .ite (moves_pure ()) (moves_throw trivial)

theorem confined_readPlain (context : Context) (kind : PlainKind) :
    Reader.Confined OfStream (readPlain context kind) := by
  have fields := (Plain.confined_read context kind).mono OfFields.ofStream
  apply (Reader.confined_word16As ofStream_end "u16").bind
  intro declared
  apply (Reader.confined_part ofStream_end declared.toNat "action body").bind
  intro header
  apply (Reader.confined_within header fields).bind
  intro result
  apply (confined_closeHeader context kind.opcode declared.toNat result.2).bind
  intro _
  exact moves_pure (plain result.1)

theorem confined_readCall : Reader.Confined OfStream readCall := by
  apply (Reader.confined_word16As ofStream_end "u16").bind
  intro declared
  apply (Reader.confined_skip ofStream_end declared.toNat).bind
  intro _
  exact moves_pure call

theorem confined_readUnknown (opcode : UInt8) : Reader.Confined OfStream (readUnknown opcode) := by
  apply (Reader.confined_word16As ofStream_end "u16").bind
  intro declared
  exact (Reader.confined_take ofStream_end declared.toNat "byte block").map

theorem confined_fixedForm (context : Context) (opcode : UInt8) :
    Reader.Confined OfStream (Reader.ofExcept (ofFixedForm context opcode)) := by
  apply Reader.confined_ofExcept
  intro error failure
  unfold ofFixedForm at failure
  split at failure
  · cases failure
  · split at failure
    · cases failure
    · cases failure
      trivial

section

variable {region : Nat → Reader (List Action)}
  (confined : ∀ size, Reader.Confined OfStream (region size))

include confined

theorem confined_readBlock (context : Context) (kind : BlockKind) :
    Reader.Confined OfStream (readBlock region context kind) := by
  have fields := (Block.confined_read context kind).mono OfFields.ofStream
  apply (Reader.confined_word16As ofStream_end "u16").bind
  intro declared
  apply (Reader.confined_part ofStream_end declared.toNat "action body").bind
  intro header
  apply (Reader.confined_within header fields).bind
  intro result
  apply (Block.moves_visit (fun size : UInt16 => confined size.toNat) result.1).bind
  intro fields
  apply (confined_closeHeader context kind.opcode declared.toNat result.2).bind
  intro _
  exact moves_pure (block fields)

theorem confined_readAfter (context : Context) (opcode : UInt8) :
    Reader.Confined OfStream (readAfter region context opcode) := by
  unfold readAfter
  apply Moves.ite (confined_fixedForm context opcode)
  apply Moves.ite confined_readCall
  cases PlainKind.ofOpcode? opcode with
  | some kind => exact confined_readPlain context kind
  | none =>
      cases BlockKind.ofOpcode? opcode with
      | some kind => exact confined_readBlock confined context kind
      | none => exact confined_readUnknown opcode

theorem confined_readWith (context : Context) :
    Reader.Confined OfStream (readWith region context) := by
  apply (Reader.confined_byte ofStream_end).bind
  intro opcode
  exact confined_readAfter confined context opcode

end

/-- A region is closed once its limit is reached, so it can only be overrun. -/
theorem endsAlong_closeRegion {limit : Nat} (found : List Action) {cursor : Cursor}
    (reached : limit ≤ cursor.sinceMark) :
    EndsAlong Cursor.Follows OfStream cursor (closeRegion limit found cursor) := by
  rw [closeRegion_apply]
  by_cases full : cursor.sinceMark = limit
  · rw [if_pos full]
    exact refl_of Cursor.Follows cursor
  · have longer : limit < cursor.sinceMark := by omega
    rw [if_neg full]
    exact ⟨refl_of Cursor.Follows cursor, longer⟩

/-- The rounds do not run out before the limit is reached, since every action takes a byte. -/
theorem endsAlong_fillRegion {read : Reader Action} {form : Form Action} {start : Nat}
    {marks : List Nat} (nonempty : ∀ front action, form front action → front ≠ [])
    (accepts : Reader.Accepts (start :: marks) read form)
    (confined : Reader.Confined OfStream read) {limit rounds position : Nat} (found : List Action)
    (unread : List UInt8) (enough : limit ≤ position - start + rounds) (after : start ≤ position) :
    EndsAlong Cursor.Follows OfStream ⟨unread, position, start :: marks⟩
      (fillRegion read limit found rounds ⟨unread, position, start :: marks⟩) := by
  induction rounds generalizing found unread position with
  | zero => exact endsAlong_closeRegion found enough
  | succ rounds ih =>
      by_cases reached : limit ≤ position - start
      · rw [fillRegion_of_limit_le read found _ reached]
        exact endsAlong_closeRegion found reached
      · have notFull : (⟨unread, position, start :: marks⟩ : Cursor).sinceMark < limit :=
          Nat.lt_of_not_le reached
        rw [fillRegion_succ, if_pos notFull]
        cases outcome : read ⟨unread, position, start :: marks⟩ with
        | error error moved =>
            rw [bind_of_error outcome]
            exact confined.of_error outcome
        | ok action moved =>
            have follows := confined.of_ok outcome
            obtain ⟨front, rest, first, rfl, rfl⟩ := (accepts _ _ _ _).mp outcome
            have positive := List.length_pos_iff.mpr (nonempty front action first)
            rw [bind_of_ok outcome]
            apply EndsAlong.trans _ follows
            exact ih (action :: found) rest (by omega) (by omega)

theorem confined_openRegion {limit : Nat} {read : Reader (List Action)}
    (confined : Reader.Confined OfStream read) :
    Reader.Confined OfStream (openRegion limit read) := by
  intro cursor
  rw [openRegion_apply]
  split
  · exact refl_of Cursor.Follows cursor
  · split
    · exact ⟨refl_of Cursor.Follows cursor, trivial⟩
    · exact confined cursor

/-- The mark of a region is dropped whatever happens inside. -/
theorem confined_marked {α : Type} {admits : CodecError → Prop} {read : Reader α}
    (inside : ∀ cursor : Cursor, EndsAlong Cursor.Follows admits cursor.mark (read cursor.mark)) :
    Reader.Confined admits (Reader.marked read) := by
  intro cursor
  have ends := inside cursor
  unfold Reader.marked
  cases outcome : read cursor.mark with
  | ok value moved =>
      rw [outcome] at ends
      exact Cursor.Follows.unmark ends
  | error error moved =>
      rw [outcome] at ends
      exact ⟨ends.1.unmark, ends.2⟩

theorem confined_regionAt (context : Context) (levels limit : Nat) :
    Reader.Confined OfStream (regionAt context levels limit) := by
  induction levels generalizing limit with
  | zero => exact confined_openRegion (moves_throw rfl)
  | succ levels ih =>
      apply confined_openRegion
      apply confined_marked
      intro cursor
      have accepts : Reader.Accepts (cursor.position :: cursor.marks) _ _ :=
        accepts_readWith (accepts_regionAt context levels) context
      exact endsAlong_fillRegion ActionForm.nonempty accepts (confined_readWith ih context) []
        cursor.unread (Nat.le_add_left ..) (Nat.le_refl cursor.position)

/-- Whatever a stream fails with says why, and no mark is left behind. -/
theorem confined_read (context : Context) : Reader.Confined OfStream (read context) :=
  fun cursor => confined_readWith
    (confined_regionAt context (deepestNesting - cursor.depth)) context cursor

theorem ofStream_of_decodeAll {context : Context} {bytes : List UInt8} {error : CodecError}
    (failure : decodeAll context bytes = .error error) : error.OfStream := by
  have confined := Reader.confined_untilEnd (confined_read context)
  unfold decodeAll at failure
  split at failure
  · cases failure
  next error moved stopped =>
    cases failure
    exact (confined.of_error stopped).2

end Action

end ActionStream
