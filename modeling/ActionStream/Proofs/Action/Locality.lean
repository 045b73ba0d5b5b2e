import ActionStream.Proofs.Action.RegionDecoding
import ActionStream.Proofs.Wire.Embedding

/-!
# Decoding looks at nothing but its input

Every reader of the decoder is local.  A header is read from an input of its own, and a region is
bounded by the bytes since its mark, so nothing that stands before an action or behind it decides
what the action is.  Whether a region fits is asked of the whole input that is left, but only a
region that does not fit could be told from more input.
-/

namespace ActionStream

namespace Block

variable {Source Target : Type}

theorem local_visit {read : Source → Reader Target} (isLocal : ∀ source, Reader.Local (read source))
    (fields : Block Source) : Reader.Local (fields.visit read) := by
  cases fields with
  | tryCatch tryBody target catchBody finallyBody =>
      apply (isLocal tryBody).bind
      intro tryResult
      apply (isLocal catchBody).bind
      intro catchResult
      apply (isLocal finallyBody).bind
      intro finallyResult
      exact Reader.local_pure (tryCatch tryResult target catchResult finallyResult)
  | _ => exact (isLocal _).bind fun _ => Reader.local_pure _

end Block

namespace Action

theorem local_closeHeader (context : Context) (opcode : UInt8) (declared : Nat) (left : Cursor) :
    Reader.Local (closeHeader context opcode declared left) :=
  (Reader.local_pure ()).ite (Reader.local_throw _)

theorem local_readPlain (context : Context) (kind : PlainKind) :
    Reader.Local (readPlain context kind) := by
  apply (Reader.local_word16As "u16").bind
  intro declared
  apply (Reader.local_part declared.toNat "action body").bind
  intro header
  apply (Reader.local_within header (Plain.read context kind)).bind
  intro result
  apply (local_closeHeader context kind.opcode declared.toNat result.2).bind
  intro _
  exact Reader.local_pure (plain result.1)

theorem local_readCall : Reader.Local readCall := by
  apply (Reader.local_word16As "u16").bind
  intro declared
  apply (Reader.local_skip declared.toNat).bind
  intro _
  exact Reader.local_pure call

theorem local_readUnknown (opcode : UInt8) : Reader.Local (readUnknown opcode) := by
  apply (Reader.local_word16As "u16").bind
  intro declared
  exact (Reader.local_take declared.toNat "byte block").map

section

variable {region : Nat → Reader (List Action)} (isLocal : ∀ size, Reader.Local (region size))

include isLocal

theorem local_readBlock (context : Context) (kind : BlockKind) :
    Reader.Local (readBlock region context kind) := by
  apply (Reader.local_word16As "u16").bind
  intro declared
  apply (Reader.local_part declared.toNat "action body").bind
  intro header
  apply (Reader.local_within header (Block.read context kind)).bind
  intro result
  apply (Block.local_visit (fun size : UInt16 => isLocal size.toNat) result.1).bind
  intro fields
  apply (local_closeHeader context kind.opcode declared.toNat result.2).bind
  intro _
  exact Reader.local_pure (block fields)

theorem local_readAfter (context : Context) (opcode : UInt8) :
    Reader.Local (readAfter region context opcode) := by
  unfold readAfter
  apply Reader.Local.ite (Reader.local_ofExcept _)
  apply Reader.Local.ite local_readCall
  cases PlainKind.ofOpcode? opcode with
  | some kind => exact local_readPlain context kind
  | none =>
      cases BlockKind.ofOpcode? opcode with
      | some kind => exact local_readBlock isLocal context kind
      | none => exact local_readUnknown opcode

theorem local_readWith (context : Context) : Reader.Local (readWith region context) :=
  Reader.local_byte.bind fun opcode => local_readAfter isLocal context opcode

end

theorem local_closeRegion (limit : Nat) (found : List Action) :
    Reader.Local (closeRegion limit found) := by
  intro offset behind cursor _
  rw [closeRegion_apply, closeRegion_apply, Cursor.sinceMark_embed]
  split <;> rfl

theorem local_fillRegion {read : Reader Action} (isLocal : Reader.Local read) (limit : Nat)
    (found : List Action) (rounds : Nat) :
    Reader.Local (fillRegion read limit found rounds) := by
  induction rounds generalizing found with
  | zero => exact local_closeRegion limit found
  | succ rounds ih =>
      intro offset behind cursor decided
      simp only [fillRegion_succ, Cursor.sinceMark_embed, Reader.EndsEarly] at decided ⊢
      split at decided
      next unfilled =>
        rw [if_pos unfilled, if_pos unfilled]
        exact isLocal.bind (fun action => ih (action :: found)) offset behind cursor decided
      next filled =>
        rw [if_neg filled, if_neg filled]
        exact local_closeRegion limit found offset behind cursor decided

theorem local_marked {α : Type} {read : Reader α} (isLocal : Reader.Local read) :
    Reader.Local (Reader.marked read) := by
  intro offset behind cursor decided
  have sameRun := isLocal offset behind cursor.mark
  unfold Reader.EndsEarly Reader.marked at *
  rw [Cursor.mark_embed]
  cases outcome : read cursor.mark with
  | ok value moved =>
      rw [sameRun (.inr (by simp [outcome])), outcome]
      exact congrArg (EStateM.Result.ok value) (Cursor.unmark_embed offset behind moved)
  | error error moved =>
      rw [sameRun (by simpa [outcome] using decided), outcome]
      exact congrArg (EStateM.Result.error error) (Cursor.unmark_embed offset behind moved)

/-- A region that is longer than the input might be opened if more bytes followed; any other is
opened or refused for its own sake. -/
theorem local_openRegion (limit : Nat) {read : Reader (List Action)} (isLocal : Reader.Local read) :
    Reader.Local (openRegion limit read) := by
  intro offset behind cursor decided
  by_cases isEmpty : limit = 0
  · simp only [openRegion_apply, if_pos isEmpty]
    rfl
  by_cases short : (cursor.unread.take limit).length < limit
  · have refused : openRegion limit read cursor =
        .error (.unexpectedEnd "framed region") cursor := by
      simp only [openRegion_apply, if_neg isEmpty, if_pos short]
    obtain rfl := Reader.nil_of_endsEarly decided refused
    have stillShort : ((cursor.embed offset []).unread.take limit).length < limit := by
      simpa [Cursor.embed] using short
    rw [refused]
    simp only [openRegion_apply, if_neg isEmpty, if_pos stillShort]
    rfl
  · have stillFits : ¬ ((cursor.embed offset behind).unread.take limit).length < limit := by
      rw [List.length_take] at short ⊢
      simp only [Cursor.embed, List.length_append]
      omega
    have opened : openRegion limit read cursor = read cursor := by
      simp only [openRegion_apply, if_neg isEmpty, if_neg short]
    have decidedInside : behind = [] ∨ ¬ Reader.EndsEarly read cursor := by
      simpa only [Reader.EndsEarly, opened] using decided
    rw [opened, ← isLocal offset behind cursor decidedInside]
    simp only [openRegion_apply, if_neg isEmpty, if_neg stillFits]

theorem local_regionAt (context : Context) (levels limit : Nat) :
    Reader.Local (regionAt context levels limit) := by
  induction levels generalizing limit with
  | zero => exact local_openRegion limit (Reader.local_throw _)
  | succ levels ih =>
      exact local_openRegion limit (local_marked (local_fillRegion (local_readWith ih context) limit
        [] limit))

/-- As many levels are left as in the shorter input, since the same number of regions are open. -/
theorem local_read (context : Context) : Reader.Local (read context) := by
  intro offset behind cursor decided
  have sameRun := local_readWith (local_regionAt context (deepestNesting - cursor.depth)) context
    offset behind cursor decided
  rw [read_apply, read_apply, Cursor.depth_embed]
  exact sameRun

end Action

end ActionStream
