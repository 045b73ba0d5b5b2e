import ActionStream.Proofs.Action.RoundTrip

/-!
# Encoding what was decoded

No form of an action is shorter than its written form: fields can only be written in fewer bytes
than they were read from, and so can regions.  A decoded stream can therefore be encoded, since
every size that has to be announced again is at most the one that was announced before.
-/

namespace ActionStream

namespace ActionForm

variable {context : Context} {Region : Form (List Action)} {bytes : List UInt8} {action : Action}
  (shrinks : ∀ front actions, Region front actions →
    Action.totalSize context actions ≤ front.length)

include shrinks

/-- The written form of an action is not longer than any other, if so are those of its regions. -/
theorem size_le (form : ActionForm context Region bytes action) :
    action.size context ≤ bytes.length := by
  cases form with
  | basic op => exact Nat.le_refl _
  | gap allowed small unlisted => simp [Action.size, isFixedForm_iff.mpr small]
  | plain header filled short =>
      have bound := header.length_bytes_le
      rw [Plain.length_bytes] at bound
      rw [Action.size, length_headed, List.length_append]
      omega
  | @block front extra parts header filled short sized regions =>
      have headerBound := header.length_bytes
      rw [Block.length_bytes, Block.headerSize_map] at headerBound
      have regionsBound : Action.regionsSize context (parts.map fun part => part.2) ≤
          (parts.regions.flatMap fun part => part.1).length := by
        rw [← Action.length_regionsBytes, Action.regionsBytes_eq_flatMap, Block.regions_map,
          List.flatMap_map]
        refine length_flatMap_le_length_flatMap fun part member => ?_
        rw [Action.length_allBytes]
        exact shrinks _ _ (regions part member)
      rw [Action.size, Block.headerSize_map, List.length_append, length_headed, List.length_append]
      omega
  | call short =>
      rw [Action.size, length_headed]
      omega
  | unknown large unlisted short =>
      rw [Action.size, length_headed, isFixedForm_eq_false_iff.mpr large]
      exact Nat.le_refl _

/-- An action that has a form can be written, if its regions shrink. -/
theorem fits (form : ActionForm context Region bytes action) : action.Fits context := by
  cases form with
  | plain header filled short =>
      have bound := header.length_bytes_le
      rw [Plain.length_bytes] at bound
      rw [List.length_append] at short
      exact ⟨header.writable, by omega⟩
  | block header filled short sized regions =>
      have headerBound := header.length_bytes
      rw [Block.length_bytes, Block.headerSize_map] at headerBound
      rw [List.length_append] at short
      refine ⟨by simpa using header.writable, by rw [Block.headerSize_map]; omega, ?_⟩
      rw [Block.regions_map, List.forall_mem_map]
      exact fun part member => Nat.le_trans (shrinks _ _ (regions part member)) (sized part member)
  | unknown large unlisted short => exact .inr short
  | gap allowed small unlisted => exact .inl (isFixedForm_iff.mpr small)
  | basic op => trivial
  | call short => trivial

end ActionForm

namespace Stream

variable {context : Context} {bytes : List UInt8} {actions : List Action}

theorem totalSize_le (stream : Stream context bytes actions) :
    Action.totalSize context actions ≤ bytes.length := by
  refine Stream.induction
    (motive := fun bytes actions => Action.totalSize context actions ≤ bytes.length)
    (fun bytes actions sequence => ?_) stream
  rw [← Action.length_allBytes, Action.allBytes_eq_flatMap]
  refine sequence.length_flatMap_le fun front action form => ?_
  rw [Action.length_bytes]
  exact form.size_le fun _ _ both => both.2

/-- Every action that was decoded can be written and read again. -/
theorem readable (stream : Stream context bytes actions) :
    Action.Throughout (Action.Readable context) actions :=
  stream.throughout fun _ _ form =>
    ⟨form.fits fun _ _ => totalSize_le, form.producible, form.unreserved, form.readsBack⟩

end Stream

namespace Action

/-- What was decoded is encoded without failure in no more bytes than it was decoded from, and what
was encoded is decoded as the same actions, so that encoding it again changes nothing. -/
theorem encodeAll_of_decodeAll {context : Context} {bytes : List UInt8} {actions : List Action}
    (decoded : decodeAll context bytes = .ok actions) :
    ∃ rewritten, encodeAll context actions = .ok rewritten ∧
      rewritten.length = totalSize context actions ∧
      totalSize context actions ≤ bytes.length ∧
      decodeAll context rewritten = .ok actions ∧
      (decodeAll context rewritten >>= encodeAll context) = .ok rewritten := by
  obtain ⟨stream, nests⟩ := stream_of_decodeAll decoded
  have encoded : encodeAll context actions = .ok (allBytes context actions) :=
    (encodeAll_eq_ok_iff ..).mpr ⟨fun action member => (stream.readable action member).1, rfl⟩
  have decodedAgain : decodeAll context (allBytes context actions) = .ok actions :=
    decodeAll_of_stream (stream_allBytes stream.readable) nests
  refine ⟨allBytes context actions, encoded, length_allBytes context actions, stream.totalSize_le,
    decodedAgain, ?_⟩
  rw [decodedAgain]
  exact encoded

/-- A jump to a frame with a reserved flag bit, an announced bias of zero and a byte behind its
fields, before an opcode of a gap. -/
def wastefulJumpBytes : List UInt8 :=
  [0x9F, 4, 0, 0x83, 0, 0, 7, 0x01]

/-- The jump and the gap. -/
def wastefulJump : List Action :=
  [.plain (.gotoFrame2 true 0), .unknown 1 []]

theorem encodeAll_of_decodeAll_wastefulJump :
    decodeAll { lenient := true } wastefulJumpBytes = .ok wastefulJump ∧
      ∃ rewritten, encodeAll { lenient := true } wastefulJump = .ok rewritten ∧
        rewritten.length = totalSize { lenient := true } wastefulJump ∧
        totalSize { lenient := true } wastefulJump ≤ wastefulJumpBytes.length ∧
        decodeAll { lenient := true } rewritten = .ok wastefulJump ∧
        (decodeAll { lenient := true } rewritten >>= encodeAll { lenient := true }) =
          .ok rewritten := by
  have decoded : decodeAll { lenient := true } wastefulJumpBytes = .ok wastefulJump := rfl
  exact ⟨decoded, encodeAll_of_decodeAll decoded⟩

end Action

end ActionStream
