import ActionStream.Proofs.Action.Recording
import ActionStream.Proofs.Action.Recovery
import ActionStream.Proofs.Action.Settled

/-!
# How deep decoding goes

The decoder holds no more marks than there are levels of regions, on every way through every input.
The bound is exact: a decoder with more levels does the same as this one, unless this one stops
because its levels are used up.  With as many levels as a stream has, it decodes the stream; so on a
stream that nests too deep the decoder has no other way to stop.
-/

namespace ActionStream

/-- The failure of a region that is opened inside as many regions as may be open. -/
def CodecError.IsTooDeep : CodecError → Prop
  | nestingTooDeep limit => limit = deepestNesting
  | _ => False

open CodecError

namespace Action

variable (context : Context)

/-- Further levels make a difference only where the levels are used up. -/
theorem restricts_regionAt_add (levels more limit : Nat) :
    Restricts IsTooDeep (regionAt (m := Reader) context levels limit)
      (regionAt context (levels + more) limit) := by
  induction levels generalizing limit with
  | zero =>
      cases more with
      | zero => exact restricts_refl _
      | succ more =>
          have admitted : IsTooDeep (nestingTooDeep deepestNesting) := rfl
          exact restricts_openRegion limit (restricts_throw admitted _)
  | succ levels ih =>
      rw [Nat.add_right_comm]
      apply restricts_openRegion
      apply restricts_marked
      apply restricts_fillRegion
      exact restricts_readWith (restrictsHeaders_refl context) ih

/-- Reads an action with more levels of regions than usual. -/
def readDeeper (more : Nat) : Reader Action := do
  readWith (regionAt context (deepestNesting - (← get).depth + more)) context

theorem restricts_readDeeper (more : Nat) :
    Restricts IsTooDeep (read context) (readDeeper context more) := by
  intro cursor
  have regions := restricts_regionAt_add context (deepestNesting - cursor.depth) more
  exact restricts_readWith (restrictsHeaders_refl context) regions cursor

theorem accepts_readDeeper (more : Nat) :
    Reader.Accepts [] (readDeeper context more) fun front action =>
      ActionForm context (Stream context) front action ∧
        action.nesting ≤ deepestNesting + more := by
  intro unread position action moved
  change readWith (m := Reader) (regionAt context (deepestNesting + more)) context _ = _ ↔ _
  rw [accepts_readWith (accepts_regionAt context (deepestNesting + more)) context]
  simp only [ActionForm.and_nesting_iff]

variable {context}

/-- A stream that nests too deep fails with this and with nothing else. -/
theorem decodeAll_of_deep_stream {bytes : List UInt8} {actions : List Action}
    (stream : Stream context bytes actions) (deep : deepestNesting < listNesting actions) :
    decodeAll context bytes = .error (.nestingTooDeep deepestNesting) := by
  have nests : listNesting actions ≤ deepestNesting + listNesting actions := Nat.le_add_left ..
  have forms := (Sequence.and_iff ..).mpr
    ⟨Stream.iff_sequence.mp stream, listNesting_le_iff.mp nests⟩
  have decodes := (Reader.untilEnd_eq_ok_iff (accepts_readDeeper context (listNesting actions))
    (fun front action form => form.1.nonempty front action) bytes 0 actions _).mpr ⟨forms, rfl⟩
  have whole := Reader.restricts_untilEnd (restricts_readDeeper context (listNesting actions))
    (Cursor.ofBytes bytes)
  rcases whole with same | ⟨error, after, stopped, tooDeep⟩
  · have decoded : decodeAll context bytes = .ok actions := by
      rw [decodeAll, same, Cursor.ofBytes, decodes]
    exact absurd (stream_of_decodeAll decoded).2 (Nat.not_le.mpr deep)
  · rw [decodeAll, stopped]
    cases error with
    | nestingTooDeep limit =>
        obtain rfl : limit = deepestNesting := tooDeep
        rfl
    | _ => exact tooDeep.elim

/-- What was encoded and does not nest too deep does not fail for this reason.  Lenient decoding
accepts it, and strict decoding can only fail where lenient decoding goes on. -/
theorem decodeAll_ne_nestingTooDeep {actions : List Action} {bytes : List UInt8}
    (producible : Throughout Producible actions) (nests : listNesting actions ≤ deepestNesting)
    (encoded : encodeAll context actions = .ok bytes) (limit : Nat) :
    decodeAll context bytes ≠ .error (.nestingTooDeep limit) := by
  rw [← encodeAll_withLenient context true] at encoded
  obtain ⟨fits, written⟩ := (encodeAll_eq_ok_iff ..).mp encoded
  obtain ⟨others, stream, sameNesting⟩ := exists_stream_allBytes fun action within =>
    ⟨fits action within, producible action within, .inl rfl⟩
  rw [← written] at stream
  rw [← sameNesting] at nests
  have decoded := decodeAll_of_stream stream nests
  intro failure
  cases lenient : context.lenient with
  | true =>
      have same : context.withLenient true = context := by rw [Context.withLenient, ← lenient]
      rw [same, failure] at decoded
      cases decoded
  | false =>
      have same : context.withLenient false = context := by rw [Context.withLenient, ← lenient]
      have strictly := decodeAll_strict_or context bytes
      rw [same, failure, decoded] at strictly
      rcases strictly with alike | ⟨error, stopped, relaxed⟩
      · cases alike
      · cases stopped
        exact relaxed

/-- Wherever decoding is, at most 64 marks are held, and what it gives nests at most 64 deep, not
deeper than the marks went that were held on the way.  What was encoded and nests deeper fails for
this reason, unless strict decoding has another one. -/
theorem decodeAll_nesting_exact (context : Context) :
    (∀ bytes, (Recorder.decodeAll context bytes).1 = decodeAll context bytes ∧
      (∀ point ∈ (Recorder.decodeAll context bytes).2, point.depth ≤ 64) ∧
      ∀ actions, decodeAll context bytes = .ok actions → listNesting actions ≤ 64 ∧
        ∃ point ∈ (Recorder.decodeAll context bytes).2, listNesting actions ≤ point.depth) ∧
    ∀ actions bytes, Throughout Producible actions → 64 < listNesting actions →
      encodeAll context actions = .ok bytes →
      (context.lenient = true ∨ Throughout Unreserved actions) →
      decodeAll context bytes = .error (.nestingTooDeep 64) := by
  refine ⟨fun bytes => ⟨Recorder.fst_decodeAll context bytes, ?_, ?_⟩, ?_⟩
  · intro point member
    exact Recorder.depth_le_of_mem_decodeAll context member
  · intro actions decoded
    exact ⟨(stream_of_decodeAll decoded).2, Recorder.exists_mem_decodeAll context decoded⟩
  · intro actions bytes producible deep encoded unreserved
    obtain ⟨fits, rfl⟩ := (encodeAll_eq_ok_iff ..).mp encoded
    obtain ⟨others, stream, sameNesting⟩ := exists_stream_allBytes fun action within =>
      ⟨fits action within, producible action within,
        unreserved.imp_right fun throughout => throughout action within⟩
    rw [← sameNesting] at deep
    exact decodeAll_of_deep_stream stream deep

section Nested

/-- A `pop` inside as many regions as the number says. -/
def nestedPop : Nat → List Action
  | 0 => [basic .pop]
  | levels + 1 => [block (.withObject (nestedPop levels))]

theorem throughout_nestedPop {holds : Action → Prop} (pop : holds (basic .pop))
    {levels : Nat} (nested : ∀ inside < levels, holds (block (.withObject (nestedPop inside)))) :
    Throughout holds (nestedPop levels) := by
  induction levels with
  | zero => exact (throughout_single (by simp)).mpr pop
  | succ levels ih =>
      refine throughout_block.mpr ⟨nested levels (Nat.lt_succ_self levels), ?_⟩
      rw [Block.regions, List.forall_mem_singleton]
      exact ih fun inside below => nested inside (Nat.lt_succ_of_lt below)

theorem listNesting_nestedPop (levels : Nat) : listNesting (nestedPop levels) = levels := by
  induction levels with
  | zero => rfl
  | succ levels ih =>
      have opened : openNesting (nestedPop levels) = listNesting (nestedPop levels) + 1 := by
        cases levels <;> simp [nestedPop, openNesting, listNesting, Nat.add_comm]
      simp [nestedPop, listNesting, nesting, regionsNesting, opened, ih]

theorem totalSize_nestedPop (levels : Nat) :
    totalSize context (nestedPop levels) = 5 * levels + 1 := by
  induction levels with
  | zero => rfl
  | succ levels ih =>
      rw [nestedPop, totalSize_cons, totalSize_nil, size, regionsSize_eq_sumOver, Block.regions,
        sumOver_cons, sumOver_nil, ih, lengthHeaderSize, Block.headerSize]
      omega

end Nested

/-- One region more than may be open. -/
theorem decodeAll_nesting_exact_nestedPop :
    Throughout Producible (nestedPop 65) ∧ 64 < listNesting (nestedPop 65) ∧
      ∃ bytes, encodeAll {} (nestedPop 65) = .ok bytes ∧
        decodeAll {} bytes = .error (.nestingTooDeep 64) ∧
        ∀ point ∈ (Recorder.decodeAll {} bytes).2, point.depth ≤ 64 := by
  have producible : Throughout Producible (nestedPop 65) :=
    throughout_nestedPop trivial fun _ _ => trivial
  have unreserved : Throughout Unreserved (nestedPop 65) :=
    throughout_nestedPop trivial fun _ _ => trivial
  have fits : Throughout (Fits {}) (nestedPop 65) := by
    have popFits : Fits {} (basic .pop) := trivial
    have short : Block.headerSize {} (.withObject ([] : List Action)) ≤ 65535 := by decide
    refine throughout_nestedPop popFits fun inside below => ⟨trivial, short, ?_⟩
    rw [Block.regions, List.forall_mem_singleton, totalSize_nestedPop]
    omega
  have deep : 64 < listNesting (nestedPop 65) := by
    rw [listNesting_nestedPop]
    decide
  have encoded := (encodeAll_eq_ok_iff {} (nestedPop 65) _).mpr ⟨fits, rfl⟩
  obtain ⟨bounded, exact⟩ := decodeAll_nesting_exact {}
  exact ⟨producible, deep, _, encoded, exact _ _ producible deep encoded (.inr unreserved),
    (bounded _).2.1⟩

end Action

end ActionStream
