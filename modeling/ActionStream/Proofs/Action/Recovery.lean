import ActionStream.Proofs.Action.Leniency
import ActionStream.Proofs.Action.Rewriting

/-!
# What lenient decoding keeps

Lenient decoding passes over header bytes that no field takes and over reserved flag bits, and the
encoder, which does not ask for leniency, writes neither of them again.  One flag field is an
exception: the flags of a function with registers are kept as they were read and written as they are
kept.  What was decoded leniently, fixed-form gaps apart, can therefore be written for strict
decoding exactly if no function with registers has reserved flag bits.
-/

namespace ActionStream

namespace Action

section Encoding

variable {context other : Context}

theorem totalSize_congr {actions : List Action}
    (each : ∀ action ∈ actions, action.size context = action.size other) :
    totalSize context actions = totalSize other actions := by
  induction actions with
  | nil => rfl
  | cons first rest ih =>
      rw [List.forall_mem_cons] at each
      rw [totalSize_cons, totalSize_cons, each.1, ih each.2]

theorem writeAll_congr {actions : List Action}
    (each : ∀ action ∈ actions, write context action = write other action) :
    writeAll context actions = writeAll other actions := by
  induction actions with
  | nil => rfl
  | cons first rest ih =>
      rw [List.forall_mem_cons] at each
      rw [writeAll, writeAll, each.1, ih each.2]

theorem writeRegions_congr {fields : Block (List Action)}
    (each : ∀ region ∈ fields.regions, writeAll context region = writeAll other region) :
    writeRegions context fields = writeRegions other fields := by
  cases fields with
  | tryCatch tryBody target catchBody finallyBody =>
      simp only [Block.regions, List.forall_mem_cons] at each
      rw [writeRegions, writeRegions, each.1, each.2.1, each.2.2.1]
  | _ => exact each _ (List.mem_singleton_self _)

variable (context) (lenient : Bool)

theorem size_withLenient (action : Action) :
    action.size (context.withLenient lenient) = action.size context := by
  induction action using induction with
  | block fields ih =>
      have regions := fun region member => totalSize_congr (ih region member)
      rw [size, size, regionsSize_eq_sumOver, regionsSize_eq_sumOver, sumOver_congr regions]
      rfl
  | _ => rfl

theorem regionSize_withLenient (opcode : UInt8) :
    regionSize (context.withLenient lenient) opcode = regionSize context opcode := by
  funext region
  have sameSize := totalSize_congr fun action (_ : action ∈ region) =>
    size_withLenient context lenient action
  rw [regionSize, regionSize, sameSize]

/-- The encoder does not ask for leniency. -/
theorem write_withLenient (action : Action) :
    write (context.withLenient lenient) action = write context action := by
  induction action using induction with
  | block fields ih =>
      have regions := writeRegions_congr fun region member => writeAll_congr (ih region member)
      rw [write, write, regions, writeBlockFields, writeBlockFields, regionSize_withLenient]
      rfl
  | _ => rfl

theorem encodeAll_withLenient (actions : List Action) :
    encodeAll (context.withLenient lenient) actions = encodeAll context actions := by
  have same := writeAll_congr fun action (_ : action ∈ actions) =>
    write_withLenient context lenient action
  rw [encodeAll, encodeAll, same]

end Encoding

/-- An action that is not a gap among the fixed-form opcodes. -/
def NoGap : Action → Prop
  | unknown opcode _ => isFixedForm opcode = false
  | _ => True

/-- An action whose flags are all defined. -/
def FlagsDefined : Action → Prop
  | block fields => fields.Unreserved
  | _ => True

instance : DecidablePred NoGap
  | unknown opcode _ => inferInstanceAs (Decidable (isFixedForm opcode = false))
  | basic _ | plain _ | block _ | call => isTrue trivial

instance : DecidablePred FlagsDefined
  | block fields => inferInstanceAs (Decidable fields.Unreserved)
  | basic _ | plain _ | call | unknown _ _ => isTrue trivial

theorem unreserved_iff (action : Action) :
    action.Unreserved ↔ action.NoGap ∧ action.FlagsDefined := by
  cases action <;> simp [Unreserved, NoGap, FlagsDefined]

theorem readsBack_withLenient (context : Context) (lenient : Bool) (action : Action) :
    action.ReadsBack (context.withLenient lenient) ↔ action.ReadsBack context := by
  cases action with
  | plain fields => cases fields <;> exact Iff.rfl
  | _ => exact Iff.rfl

/-- A written form without gaps is accepted by strict decoding exactly if all flags are defined. -/
theorem decodeAll_allBytes_strict_iff {context : Context} {actions : List Action}
    {bytes : List UInt8} (noGap : Throughout NoGap actions)
    (encoded : encodeAll (context.withLenient true) actions = .ok bytes)
    (readable : Throughout (Readable (context.withLenient true)) actions)
    (nests : listNesting actions ≤ deepestNesting) :
    decodeAll (context.withLenient false) bytes = .ok actions ↔
      Throughout FlagsDefined actions := by
  rw [encodeAll_withLenient, ← encodeAll_withLenient context false] at encoded
  obtain ⟨fits, rfl⟩ := (encodeAll_eq_ok_iff ..).mp encoded
  constructor
  · intro decoded action within
    obtain ⟨stream, -⟩ := stream_of_decodeAll decoded
    have unreserved := (stream.readable action within).2.2.1.resolve_left Bool.false_ne_true
    exact ((unreserved_iff action).mp unreserved).2
  · intro flagsDefined
    apply decodeAll_of_stream (stream_allBytes _) nests
    intro action within
    obtain ⟨-, producible, -, readsBack⟩ := readable action within
    rw [readsBack_withLenient, ← readsBack_withLenient context false] at readsBack
    have unreserved := (unreserved_iff action).mpr
      ⟨noGap action within, flagsDefined action within⟩
    exact ⟨fits action within, producible, .inr unreserved, readsBack⟩

/-- What was decoded leniently and has no gap is written in a form that strict decoding gives back
exactly if all flags are defined; otherwise strict decoding refuses it.  Nothing else of what was
passed over is left. -/
theorem decodeAll_strict_rewritten_iff {context : Context} {bytes : List UInt8}
    {actions : List Action} (decoded : decodeAll (context.withLenient true) bytes = .ok actions)
    (noGap : Throughout NoGap actions) :
    ∃ rewritten, encodeAll (context.withLenient true) actions = .ok rewritten ∧
      (decodeAll (context.withLenient false) rewritten = .ok actions ↔
        Throughout FlagsDefined actions) ∧
      (¬ Throughout FlagsDefined actions →
        ∃ error, decodeAll (context.withLenient false) rewritten = .error error ∧
          error.IsRelaxed) := by
  obtain ⟨stream, nests⟩ := stream_of_decodeAll decoded
  have readable := stream.readable
  have encoded : encodeAll (context.withLenient true) actions =
      .ok (allBytes (context.withLenient true) actions) :=
    (encodeAll_eq_ok_iff ..).mpr ⟨fun action within => (readable action within).1, rfl⟩
  have decodedAgain := decodeAll_of_stream (stream_allBytes readable) nests
  have accepted := decodeAll_allBytes_strict_iff noGap encoded readable nests
  refine ⟨allBytes (context.withLenient true) actions, encoded, accepted, fun undefined => ?_⟩
  rcases decodeAll_strict_or context (allBytes (context.withLenient true) actions) with
    same | refused
  · exact absurd (accepted.mp (same.trans decodedAgain)) undefined
  · exact refused

/-- A jump to a frame with a reserved flag bit and a byte behind its fields, before a function
without reserved flag bits. -/
def sparedJumpBytes : List UInt8 :=
  [0x9F, 2, 0, 0x81, 7, 0x8E, 8, 0, 0, 0, 0, 0, 1, 0, 0, 0]

def sparedJump : List Action :=
  [.plain (.gotoFrame2 true 0), .block (.defineFunction2 "" 0 ⟨1⟩ [] [])]

theorem decodeAll_strict_rewritten_sparedJump :
    decodeAll (Context.withLenient {} true) sparedJumpBytes = .ok sparedJump ∧
      Throughout NoGap sparedJump ∧
      ∃ rewritten, encodeAll (Context.withLenient {} true) sparedJump = .ok rewritten ∧
        (decodeAll (Context.withLenient {} false) rewritten = .ok sparedJump ↔
          Throughout FlagsDefined sparedJump) ∧
        (¬ Throughout FlagsDefined sparedJump →
          ∃ error, decodeAll (Context.withLenient {} false) rewritten = .error error ∧
            error.IsRelaxed) := by
  have decoded : decodeAll (Context.withLenient {} true) sparedJumpBytes = .ok sparedJump := rfl
  have noGap : Throughout NoGap sparedJump := by decide
  exact ⟨decoded, noGap, decodeAll_strict_rewritten_iff decoded noGap⟩

/-- A function with registers that has a reserved flag bit. -/
def reservedFunctionBytes : List UInt8 :=
  [0x8E, 8, 0, 0, 0, 0, 0, 0, 2, 0, 0]

def reservedFunction : List Action :=
  [.block (.defineFunction2 "" 0 ⟨0x200⟩ [] [])]

/-- The reserved flag bit of a function is kept, so strict decoding refuses what is written for
it. -/
theorem encodeAll_reservedFunction :
    decodeAll (Context.withLenient {} true) reservedFunctionBytes = .ok reservedFunction ∧
      Throughout NoGap reservedFunction ∧
      encodeAll (Context.withLenient {} true) reservedFunction = .ok reservedFunctionBytes ∧
      decodeAll (Context.withLenient {} false) reservedFunctionBytes =
        .error (.invalidFlags 0x8E 0x200) :=
  ⟨rfl, by decide, rfl, rfl⟩

end Action

end ActionStream
