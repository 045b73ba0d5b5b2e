import ActionStream.Proofs.Action.RegionDecoding
import ActionStream.Proofs.Wire.Restricting

/-!
# What leniency changes

Leniency is asked for in three places only: at a fixed-form opcode without an operation, at a flag
byte with reserved bits and at the end of a header.  In each of them strict decoding stops where
lenient decoding goes on, and everywhere else the two do the same.  Strict decoding therefore
restricts lenient decoding, however deep the regions nest in which these places occur.
-/

namespace ActionStream

/-- The context with the given choice between strict and lenient decoding. -/
def Context.withLenient (context : Context) (lenient : Bool) : Context :=
  { context with lenient }

/-- The failures that lenient decoding passes over. -/
def CodecError.IsRelaxed : CodecError → Prop
  | unknownBasicOpcode _ | bodyLengthMismatch _ _ _ | invalidFlags _ _ => True
  | _ => False

open CodecError

section Fields

variable (context : Context)

theorem restricts_refuseReserved (opcode : UInt8) (reserved flags : UInt16) :
    Restricts IsRelaxed (refuseReserved (context.withLenient false) opcode reserved flags)
      (refuseReserved (context.withLenient true) opcode reserved flags) := by
  unfold refuseReserved
  by_cases unreserved : reserved = 0
  · simp only [unreserved, ne_eq, not_true_eq_false, false_and, if_false]
    exact restricts_refl _
  · have refused : reserved ≠ 0 ∧ (context.withLenient false).lenient = false :=
      ⟨unreserved, rfl⟩
    rw [if_pos refused]
    exact restricts_throw trivial _

theorem Plain.restricts_readRequest :
    Restricts IsRelaxed (readRequest (context.withLenient false))
      (readRequest (context.withLenient true)) := by
  apply (restricts_refl Reader.byte).bind
  intro flags
  apply (restricts_refuseReserved context 0x9A _ _).bind
  intro _
  exact restricts_refl _

theorem Plain.restricts_readFrameJump :
    Restricts IsRelaxed (readFrameJump (context.withLenient false))
      (readFrameJump (context.withLenient true)) := by
  apply (restricts_refl Reader.byte).bind
  intro flags
  apply (restricts_refuseReserved context 0x9F _ _).bind
  intro _
  exact restricts_refl _

/-- Of the kinds without regions only the two with a flag byte ask for leniency. -/
theorem Plain.restricts_read (kind : PlainKind) :
    Restricts IsRelaxed (read (context.withLenient false) kind)
      (read (context.withLenient true) kind) := by
  cases kind with
  | getUrl2 => exact restricts_readRequest context
  | gotoFrame2 => exact restricts_readFrameJump context
  | _ => exact restricts_refl _

/-- Of the kinds with regions only the two with flags ask for leniency. -/
theorem Block.restricts_read (kind : BlockKind) :
    Restricts IsRelaxed (read (context.withLenient false) kind)
      (read (context.withLenient true) kind) := by
  cases kind with
  | defineFunction2 =>
      apply (restricts_refl (Reader.text context)).bind
      intro name
      apply (restricts_refl Reader.word16).bind
      intro count
      apply (restricts_refl Reader.byte).bind
      intro registerCount
      apply (restricts_refl Reader.word16).bind
      intro bits
      apply (restricts_refuseReserved context 0x8E _ _).bind
      intro _
      exact restricts_refl _
  | tryCatch =>
      apply (restricts_refl Reader.byte).bind
      intro flags
      apply (restricts_refuseReserved context 0x8F _ _).bind
      intro _
      exact restricts_refl _
  | defineFunction | withObject => exact restricts_refl _

/-- Regions are visited in the same order, so the first one that differs stops strict decoding. -/
theorem Block.restricts_visit {Source Target : Type} {admits : CodecError → Prop}
    {strict lenient : Source → Reader Target}
    (restricts : ∀ source, Restricts admits (strict source) (lenient source))
    (fields : Block Source) :
    Restricts admits (fields.visit strict) (fields.visit lenient) := by
  cases fields with
  | tryCatch tryBody target catchBody finallyBody =>
      apply (restricts tryBody).bind
      intro tryResult
      apply (restricts catchBody).bind
      intro catchResult
      apply (restricts finallyBody).bind
      intro finallyResult
      exact restricts_refl _
  | _ => exact (restricts _).bind fun _ => restricts_refl _

end Fields

namespace Action

variable (context : Context)

theorem restricts_closeHeader (opcode : UInt8) (declared : Nat) (left : Cursor) :
    Restricts IsRelaxed (closeHeader (context.withLenient false) opcode declared left)
      (closeHeader (context.withLenient true) opcode declared left) := by
  unfold closeHeader
  by_cases filled : left.atEnd = true
  · simp only [filled, true_or, if_true]
    exact restricts_refl _
  · have refused : ¬ (left.atEnd = true ∨ (context.withLenient false).lenient = true) := by
      simp [filled, Context.withLenient]
    rw [if_neg refused]
    exact restricts_throw trivial _

theorem restricts_fixedForm (opcode : UInt8) :
    Restricts IsRelaxed (Reader.ofExcept (ofFixedForm (context.withLenient false) opcode))
      (Reader.ofExcept (ofFixedForm (context.withLenient true) opcode)) := by
  unfold ofFixedForm
  cases BasicOp.ofOpcode? opcode with
  | some op => exact restricts_refl _
  | none =>
      have admitted : IsRelaxed (unknownBasicOpcode opcode) := trivial
      exact restricts_throw admitted _

theorem restricts_readPlain (kind : PlainKind) :
    Restricts IsRelaxed (readPlain (m := Reader) (context.withLenient false) kind)
      (readPlain (context.withLenient true) kind) := by
  apply (restricts_refl Reader.word16).bind
  intro declared
  apply (restricts_refl (Reader.part declared.toNat "action body")).bind
  intro header
  apply (Reader.restricts_within header (Plain.restricts_read context kind)).bind
  intro result
  apply (restricts_closeHeader context kind.opcode declared.toNat result.2).bind
  intro _
  exact restricts_refl _

end Action

/-- Under two contexts the same is read beside the regions, up to admitted failures. -/
structure RestrictsHeaders (admits : CodecError → Prop) (strict lenient : Context) : Prop where
  plain : ∀ kind, Restricts admits (Action.readPlain (m := Reader) strict kind)
    (Action.readPlain lenient kind)
  block : ∀ kind, Restricts admits (Block.read strict kind) (Block.read lenient kind)
  close : ∀ opcode declared left, Restricts admits (Action.closeHeader strict opcode declared left)
    (Action.closeHeader lenient opcode declared left)
  fixed : ∀ opcode, Restricts admits (Reader.ofExcept (Action.ofFixedForm strict opcode))
    (Reader.ofExcept (Action.ofFixedForm lenient opcode))

theorem restrictsHeaders_lenient (context : Context) :
    RestrictsHeaders IsRelaxed (context.withLenient false) (context.withLenient true) where
  plain := Action.restricts_readPlain context
  block := Block.restricts_read context
  close := Action.restricts_closeHeader context
  fixed := Action.restricts_fixedForm context

theorem restrictsHeaders_refl {admits : CodecError → Prop} (context : Context) :
    RestrictsHeaders admits context context where
  plain _ := restricts_refl _
  block _ := restricts_refl _
  close _ _ _ := restricts_refl _
  fixed _ := restricts_refl _

namespace Action

section

variable {admits : CodecError → Prop} {strict lenient : Context}
  {region regionLenient : Nat → Reader (List Action)}
  (headers : RestrictsHeaders admits strict lenient)
  (restricts : ∀ size, Restricts admits (region size) (regionLenient size))

include headers restricts

/-- The regions of a header are read before its end is checked, so a failure inside a region comes
before that of a header that is too long. -/
theorem restricts_readBlock (kind : BlockKind) :
    Restricts admits (readBlock region strict kind) (readBlock regionLenient lenient kind) := by
  apply (restricts_refl Reader.word16).bind
  intro declared
  apply (restricts_refl (Reader.part declared.toNat "action body")).bind
  intro header
  apply (Reader.restricts_within header (headers.block kind)).bind
  intro result
  apply (Block.restricts_visit (fun size : UInt16 => restricts size.toNat) result.1).bind
  intro fields
  apply (headers.close kind.opcode declared.toNat result.2).bind
  intro _
  exact restricts_refl _

theorem restricts_readAfter (opcode : UInt8) :
    Restricts admits (readAfter region strict opcode) (readAfter regionLenient lenient opcode) := by
  unfold readAfter
  apply Restricts.ite (headers.fixed opcode)
  apply Restricts.ite (restricts_refl readCall)
  cases PlainKind.ofOpcode? opcode with
  | some kind => exact headers.plain kind
  | none =>
      cases BlockKind.ofOpcode? opcode with
      | some kind => exact restricts_readBlock headers restricts kind
      | none => exact restricts_refl (readUnknown opcode)

theorem restricts_readWith :
    Restricts admits (readWith region strict) (readWith regionLenient lenient) :=
  (restricts_refl Reader.byte).bind fun opcode => restricts_readAfter headers restricts opcode

end

section

variable {admits : CodecError → Prop}

theorem restricts_fillRegion {strict lenient : Reader Action}
    (restricts : Restricts admits strict lenient) (limit : Nat) (found : List Action)
    (rounds : Nat) :
    Restricts admits (fillRegion strict limit found rounds)
      (fillRegion lenient limit found rounds) := by
  induction rounds generalizing found with
  | zero => exact restricts_refl (closeRegion limit found)
  | succ rounds ih =>
      intro cursor
      rw [fillRegion_succ, fillRegion_succ]
      split
      · exact restricts.bind (fun action => ih (action :: found)) cursor
      · exact .inl rfl

theorem restricts_marked {α : Type} {strict lenient : Reader α}
    (restricts : Restricts admits strict lenient) :
    Restricts admits (Reader.marked strict) (Reader.marked lenient) := by
  intro cursor
  unfold Reader.marked
  rcases restricts cursor.mark with same | ⟨error, after, stopped, admitted⟩
  · rw [same]
    exact .inl rfl
  · rw [stopped]
    exact .inr ⟨error, after.unmark, rfl, admitted⟩

theorem restricts_openRegion (limit : Nat) {strict lenient : Reader (List Action)}
    (restricts : Restricts admits strict lenient) :
    Restricts admits (openRegion limit strict) (openRegion limit lenient) := by
  intro cursor
  rw [openRegion_apply, openRegion_apply]
  split
  · exact .inl rfl
  · split
    · exact .inl rfl
    · exact restricts cursor

end

variable (context : Context)

/-- One level of regions follows from the next one, down to the level at which none may open. -/
theorem restricts_regionAt (levels limit : Nat) :
    Restricts IsRelaxed (regionAt (m := Reader) (context.withLenient false) levels limit)
      (regionAt (context.withLenient true) levels limit) := by
  induction levels generalizing limit with
  | zero => exact restricts_refl _
  | succ levels ih =>
      apply restricts_openRegion
      apply restricts_marked
      apply restricts_fillRegion
      exact restricts_readWith (restrictsHeaders_lenient context) ih

theorem restricts_read :
    Restricts IsRelaxed (read (context.withLenient false)) (read (context.withLenient true)) :=
  fun cursor => restricts_readWith (restrictsHeaders_lenient context)
    (restricts_regionAt context (deepestNesting - cursor.depth)) cursor

/-- Strict decoding gives the outcome of lenient decoding, or a failure that only it has. -/
theorem decodeAll_strict_or (bytes : List UInt8) :
    decodeAll (context.withLenient false) bytes = decodeAll (context.withLenient true) bytes ∨
      ∃ error, decodeAll (context.withLenient false) bytes = .error error ∧ error.IsRelaxed := by
  have whole := Reader.restricts_untilEnd (restricts_read context) (Cursor.ofBytes bytes)
  unfold decodeAll
  rcases whole with same | ⟨error, after, stopped, relaxed⟩
  · rw [same]
    exact .inl rfl
  · rw [stopped]
    exact .inr ⟨error, rfl, relaxed⟩

/-- What strict decoding accepts, lenient decoding accepts as the same actions.  What only lenient
decoding accepts fails strictly with one of the three relaxed failures.  And what lenient decoding
refuses is refused strictly too, for the same reason or for a relaxed one. -/
theorem decodeAll_lenient_extends_strict (context : Context) (bytes : List UInt8) :
    (∀ actions, decodeAll (context.withLenient false) bytes = .ok actions →
      decodeAll (context.withLenient true) bytes = .ok actions) ∧
    (∀ actions error, decodeAll (context.withLenient true) bytes = .ok actions →
      decodeAll (context.withLenient false) bytes = .error error → error.IsRelaxed) ∧
    ∀ error, decodeAll (context.withLenient true) bytes = .error error →
      ∃ earlier, decodeAll (context.withLenient false) bytes = .error earlier ∧
        (earlier = error ∨ earlier.IsRelaxed) := by
  rcases decodeAll_strict_or context bytes with same | ⟨stopped, strictly, relaxed⟩
  · rw [same]
    refine ⟨fun actions decoded => decoded, fun actions error decoded failure => ?_,
      fun error failure => ⟨error, failure, .inl rfl⟩⟩
    rw [decoded] at failure
    cases failure
  · rw [strictly]
    refine ⟨fun actions decoded => ?_, fun actions error _ failure => ?_,
      fun error _ => ⟨stopped, rfl, .inr relaxed⟩⟩
    · cases decoded
    · cases failure
      exact relaxed

/-- A region with a gap, announced by a header with a byte to spare. -/
def gappedRegionBytes : List UInt8 :=
  [0x94, 3, 0, 1, 0, 9, 0x01]

/-- A request with a reserved flag bit, before a region that its input does not hold. -/
def cutRegionBytes : List UInt8 :=
  [0x9A, 1, 0, 0x06, 0x94, 2, 0, 1, 0]

theorem decodeAll_lenient_extends_strict_gappedRegion :
    decodeAll (Context.withLenient {} true) gappedRegionBytes =
        .ok [.block (.withObject [.unknown 1 []])] ∧
      decodeAll (Context.withLenient {} false) gappedRegionBytes =
        .error (.unknownBasicOpcode 1) ∧
      IsRelaxed (.unknownBasicOpcode 1) ∧
      decodeAll (Context.withLenient {} true) cutRegionBytes =
        .error (.unexpectedEnd "framed region") ∧
      ∃ earlier, decodeAll (Context.withLenient {} false) cutRegionBytes = .error earlier ∧
        (earlier = .unexpectedEnd "framed region" ∨ earlier.IsRelaxed) := by
  have decoded : decodeAll (Context.withLenient {} true) gappedRegionBytes =
      .ok [.block (.withObject [.unknown 1 []])] := rfl
  have refused : decodeAll (Context.withLenient {} false) gappedRegionBytes =
      .error (.unknownBasicOpcode 1) := rfl
  have cut : decodeAll (Context.withLenient {} true) cutRegionBytes =
      .error (.unexpectedEnd "framed region") := rfl
  obtain ⟨-, onlyLenient, -⟩ := decodeAll_lenient_extends_strict {} gappedRegionBytes
  obtain ⟨-, -, refusedToo⟩ := decodeAll_lenient_extends_strict {} cutRegionBytes
  exact ⟨decoded, refused, onlyLenient _ _ decoded refused, cut, refusedToo _ cut⟩

end Action

end ActionStream
