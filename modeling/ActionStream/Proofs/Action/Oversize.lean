import ActionStream.Proofs.Action.Classification
import ActionStream.Proofs.Interchange.RoundTrip

/-!
# Which size is refused

The length of a header is refused before anything is written, and the size of a region when the
opcode and the length are written but no field is.  Every size inside an action is at most the size
of the region that it is in, so the outermost action is the one that refuses; and since its sizes
come before all texts, a text that cannot be written is not noticed.
-/

namespace ActionStream

open CodecError

/-- A visit that checks regions in order ends with the first region that is refused. -/
theorem Block.visit_of_find? {Source Target : Type} {check : Source → Writer Target}
    {refused : Source → Bool} {function : Source → Target} {fields : Block Source} {region : Source}
    {error : CodecError} {buffer : Buffer}
    (emits : ∀ source, Writer.Emits (check source) (refused source = false) [] (function source))
    (first : fields.regions.find? refused = some region)
    (fails : check region buffer = .error error buffer) :
    fields.visit check buffer = .error error buffer := by
  have passes {source : Source} (allowed : refused source = false) :
      check source buffer = .ok (function source) buffer := by
    have run := (emits source).run allowed buffer
    rwa [Buffer.append_nil] at run
  cases fields with
  | tryCatch tryBody target catchBody finallyBody =>
      rw [regions, List.find?_cons] at first
      cases tryRefused : refused tryBody with
      | true =>
          rw [tryRefused] at first
          cases first
          exact bind_of_error fails
      | false =>
          rw [tryRefused, List.find?_cons] at first
          rw [visit, bind_of_ok (passes tryRefused)]
          cases catchRefused : refused catchBody with
          | true =>
              rw [catchRefused] at first
              cases first
              exact bind_of_error fails
          | false =>
              rw [catchRefused] at first
              obtain rfl := List.mem_singleton.mp (List.mem_of_find?_eq_some first)
              rw [bind_of_ok (passes catchRefused)]
              exact bind_of_error fails
  | _ =>
      obtain rfl := List.mem_singleton.mp (List.mem_of_find?_eq_some first)
      exact bind_of_error fails

namespace Action

variable {context : Context} {action : Action} {buffer : Buffer}

theorem Obtainable.standsAlone (obtainable : action.Obtainable) : action.StandsAlone := by
  cases action with
  | unknown opcode body =>
      intro fixed
      have short := obtainable.2
      rw [greatestUnknownLength, if_pos fixed] at short
      exact List.length_eq_zero_iff.mp (Nat.le_zero.mp short)
  | _ => trivial

theorem writeHeader_of_lt {opcode : UInt8} {length : Nat} {fields : Writer Unit}
    (long : 65535 < length) :
    writeHeader opcode length fields buffer = .error (.bodyTooLarge opcode length) buffer := by
  rw [writeHeader, if_pos long]
  rfl

/-- When the fields of a header fail, the opcode and the length are written. -/
theorem writeHeader_of_error {opcode : UInt8} {length : Nat} {fields : Writer Unit}
    {error : CodecError} {left : Buffer} (short : length ≤ 65535)
    (failure : fields (buffer.append (opcode :: Wire.bytesOf16 (UInt16.ofNat length))) =
      .error error left) :
    writeHeader opcode length fields buffer = .error error left := by
  have opened : Writer.byte opcode buffer = .ok () (buffer.append [opcode]) := rfl
  have counted : Writer.word16 (UInt16.ofNat length) (buffer.append [opcode]) =
      .ok () (buffer.append (opcode :: Wire.bytesOf16 (UInt16.ofNat length))) :=
    congrArg (EStateM.Result.ok ()) (Buffer.append_append ..)
  have start (buffer : Buffer) : (get : Writer Buffer) buffer = .ok buffer buffer := rfl
  rw [writeHeader, if_neg (Nat.not_lt.mpr short)]
  refine (bind_of_ok opened).trans ?_
  rw [bind_of_ok counted, bind_of_ok (start _)]
  exact bind_of_error failure

/-- A header that cannot be counted is refused before anything is written. -/
theorem write_of_long_header (obtainable : action.Obtainable)
    (long : 65535 < action.headerLength context) :
    write context action buffer =
      .error (.bodyTooLarge action.opcode (action.headerLength context)) buffer := by
  cases action with
  | plain fields => exact writeHeader_of_lt long
  | block fields => exact bind_of_error (writeHeader_of_lt long)
  | unknown opcode body =>
      have most : greatestUnknownLength opcode ≤ 65535 := by
        unfold greatestUnknownLength
        split <;> decide
      exact absurd (Nat.le_trans obtainable.2 most) (Nat.not_le.mpr long)
  | basic op => exact absurd long (Nat.not_lt_zero _)
  | call => exact absurd long (Nat.not_lt_zero _)

/-- The first region that cannot be counted is refused in front of the fields. -/
theorem write_of_large_region {region : List Action}
    (short : action.headerLength context ≤ 65535)
    (first : action.regions.find? (65535 < totalSize context ·) = some region) :
    write context action buffer =
      .error (.bodyTooLarge action.opcode (totalSize context region))
        (buffer.append (action.opcode :: Wire.bytesOf16
          (UInt16.ofNat (action.headerLength context)))) := by
  cases action with
  | block fields =>
      have large : ¬ totalSize context region ≤ 65535 := by
        simpa using List.find?_some first
      have checks (region : List Action) :
          Writer.Emits (regionSize context fields.opcode region)
            (decide (65535 < totalSize context region) = false) []
            (UInt16.ofNat (totalSize context region)) :=
        (emits_regionSize context fields.opcode region).congr (by simp)
      have fails (buffer : Buffer) : regionSize context fields.opcode region buffer =
          .error (.bodyTooLarge fields.opcode (totalSize context region)) buffer := by
        rw [regionSize, if_neg large]
        rfl
      apply bind_of_error
      apply writeHeader_of_error short
      exact bind_of_error (Block.visit_of_find? checks first (fails _))
  | _ => cases first

theorem not_counted_iff :
    ¬ action.Counted context ↔ 65535 < action.headerLength context ∨
      ∃ region ∈ action.regions, 65535 < totalSize context region := by
  simp [Counted, imp_iff_not_or]

theorem write_of_not_counted (obtainable : action.Obtainable)
    (uncounted : ¬ action.Counted context) :
    ∃ length left, write context action buffer =
      .error (.bodyTooLarge action.opcode length) left := by
  by_cases long : 65535 < action.headerLength context
  · exact ⟨_, _, write_of_long_header obtainable long⟩
  · have short := Nat.le_of_not_lt long
    cases found : action.regions.find? (65535 < totalSize context ·) with
    | some region => exact ⟨_, _, write_of_large_region short found⟩
    | none =>
        have small : ∀ region ∈ action.regions, totalSize context region ≤ 65535 := by
          simpa using List.find?_eq_none.mp found
        exact absurd ⟨short, small⟩ uncounted

theorem write_ne_bodyTooLarge (counted : Throughout (Counted context) [action]) (opcode : UInt8)
    (length : Nat) (left : Buffer) :
    write context action buffer ≠ .error (.bodyTooLarge opcode length) left :=
  fun failure => ((appends_write_of_throughout_counted counted).of_error failure).2

/-- A size that a 16-bit field cannot say is refused by an action exactly if it is in its own
header, that of the header in front of everything and else that of the first region in front of the
fields.  A size that cannot be said further inside makes such a one further outside, and if an
action has none, no action inside it is refused for its size. -/
theorem write_bodyTooLarge_outermost (context : Context)
    (obtainable : Throughout Obtainable [action]) (buffer : Buffer) :
    ((∃ opcode length left, write context action buffer =
        .error (.bodyTooLarge opcode length) left) ↔
      65535 < action.headerLength context ∨
        ∃ region ∈ action.regions, 65535 < totalSize context region) ∧
    (65535 < action.headerLength context → write context action buffer =
      .error (.bodyTooLarge action.opcode (action.headerLength context)) buffer) ∧
    (action.headerLength context ≤ 65535 → ∀ region,
      action.regions.find? (65535 < totalSize context ·) = some region →
        write context action buffer =
          .error (.bodyTooLarge action.opcode (totalSize context region))
            (buffer.append (action.opcode :: Wire.bytesOf16
              (UInt16.ofNat (action.headerLength context))))) ∧
    (¬ Throughout (Counted context) [action] → ∃ length left, write context action buffer =
      .error (.bodyTooLarge action.opcode length) left) ∧
    (action.Counted context → Throughout (fun inner => ∀ buffer opcode length left,
      write context inner buffer ≠ .error (.bodyTooLarge opcode length) left) [action]) := by
  have alone : Throughout StandsAlone [action] :=
    fun inner within => (obtainable inner within).standsAlone
  refine ⟨?_, write_of_long_header obtainable.self, fun short _ => write_of_large_region short,
    fun uncounted => ?_, fun counted inner within _ => ?_⟩
  · rw [← not_counted_iff]
    constructor
    · rintro ⟨opcode, length, left, failure⟩ counted
      exact write_ne_bodyTooLarge (throughout_counted alone counted) opcode length left failure
    · exact fun uncounted => ⟨_, write_of_not_counted obtainable.self uncounted⟩
  · exact write_of_not_counted obtainable.self
      fun counted => uncounted (throughout_counted alone counted)
  · exact write_ne_bodyTooLarge ((throughout_counted alone counted).inside inner within)

/-- A scope with an opaque action of the given bytes. -/
def opaqueScope (body : List UInt8) : List Action :=
  [.block (.withObject [.unknown 0x80 body])]

theorem totalSize_opaqueScope (context : Context) (body : List UInt8) :
    totalSize context (opaqueScope body) = 8 + body.length := by
  have variableForm : isFixedForm 0x80 = false := rfl
  simp only [opaqueScope, totalSize_cons, totalSize_nil, size, regionsSize_eq_sumOver,
    Block.regions, sumOver_cons, sumOver_nil, Block.headerSize, lengthHeaderSize, variableForm]
  simp only [Bool.false_eq_true, if_false]
  omega

/-- A handler with such a scope for exceptions; its texts have no byte for their character in
version 5. -/
def scopedHandler (body : List UInt8) : Action :=
  .block (.tryCatch [.plain (.gotoLabel "\u0100")] (.name "\u0100") (opaqueScope body) [])

theorem obtainable_scopedHandler {body : List UInt8} (short : body.length ≤ 65535) :
    Throughout Obtainable [scopedHandler body] := by
  have unknownObtainable : Throughout Obtainable [unknown 0x80 body] :=
    (throughout_single (by simp)).mpr ⟨by decide, short⟩
  have scopeObtainable : Throughout Obtainable (opaqueScope body) :=
    throughout_block.mpr ⟨List.forall_mem_nil _, List.forall_mem_singleton.mpr unknownObtainable⟩
  rw [scopedHandler, throughout_block]
  refine ⟨List.forall_mem_nil _, ?_⟩
  simp only [Block.regions, List.forall_mem_cons]
  exact ⟨by decide, scopeObtainable, throughout_nil, List.forall_mem_nil _⟩

/-- With as many bytes as an opaque action may have, the handler is refused for the size of that
region, behind its opcode and its length. -/
theorem write_bodyTooLarge_scopedHandler :
    Throughout Obtainable [scopedHandler (List.replicate 65535 0)] ∧
      write { version := 5 } (scopedHandler (List.replicate 65535 0)) ⟨#[6]⟩ =
        .error (.bodyTooLarge 0x8F 65543) ⟨#[6, 0x8F, 9, 0]⟩ := by
  have obtainable : Throughout Obtainable [scopedHandler (List.replicate 65535 0)] :=
    obtainable_scopedHandler (Nat.le_of_eq List.length_replicate)
  have size : totalSize { version := 5 } (opaqueScope (List.replicate 65535 0)) = 65543 := by
    rw [totalSize_opaqueScope, List.length_replicate]
  have first : (scopedHandler (List.replicate 65535 0)).regions.find?
      (65535 < totalSize { version := 5 } ·) = some (opaqueScope (List.replicate 65535 0)) := by
    rw [scopedHandler, regions, Block.regions, List.find?_cons_of_neg (by decide)]
    exact List.find?_cons_of_pos (by rw [size]; decide)
  obtain ⟨-, -, refused, -, -⟩ :=
    write_bodyTooLarge_outermost { version := 5 } obtainable ⟨#[6]⟩
  have failure := refused (by decide) _ first
  rw [size] at failure
  exact ⟨obtainable, failure⟩

end Action

end ActionStream
