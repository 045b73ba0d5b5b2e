import ActionStream.Action.Write
import ActionStream.Proofs.Action.Stream

/-!
# What the encoder emits

The encoder emits one byte string for every action, the sizes in its headers being those of the
regions.  It succeeds exactly if every action, at every depth, fits: its texts can be written, and
its header and each of its regions can be counted in 16 bits.
-/

namespace ActionStream

namespace Action

mutual

/-- The written form of an action. -/
def bytes (context : Context) : Action → List UInt8
  | basic op => [op.opcode]
  | plain fields => headed fields.opcode (fields.bytes context)
  | block fields =>
    headed fields.opcode
        ((fields.map fun region => UInt16.ofNat (totalSize context region)).bytes context) ++
      regionsBytes context fields
  | call => headed callOpcode []
  | unknown opcode body => if isFixedForm opcode then [opcode] else headed opcode body

/-- The written form of all regions of an action. -/
def regionsBytes (context : Context) : Block (List Action) → List UInt8
  | .defineFunction _ _ body => allBytes context body
  | .defineFunction2 _ _ _ _ body => allBytes context body
  | .tryCatch tryBody _ catchBody finallyBody =>
    allBytes context tryBody ++ (allBytes context catchBody ++ allBytes context finallyBody)
  | .withObject body => allBytes context body

/-- The written form of a list of actions. -/
def allBytes (context : Context) : List Action → List UInt8
  | [] => []
  | first :: rest => first.bytes context ++ allBytes context rest

end

theorem allBytes_eq_flatMap (context : Context) (actions : List Action) :
    allBytes context actions = actions.flatMap (bytes context) := by
  induction actions with
  | nil => rfl
  | cons first rest ih => rw [allBytes, ih, List.flatMap_cons]

theorem regionsBytes_eq_flatMap (context : Context) (fields : Block (List Action)) :
    regionsBytes context fields = fields.regions.flatMap (allBytes context) := by
  cases fields <;> simp [regionsBytes, Block.regions]

theorem totalSize_eq_sumOver (context : Context) (actions : List Action) :
    totalSize context actions = sumOver (size context) actions := by
  induction actions with
  | nil => rfl
  | cons first rest ih => rw [totalSize_cons, ih, sumOver_cons]

theorem regionsSize_eq_sumOver (context : Context) (fields : Block (List Action)) :
    regionsSize context fields = sumOver (totalSize context) fields.regions := by
  cases fields <;> simp [regionsSize, Block.regions, totalSize, Nat.add_assoc]

theorem length_allBytes_of_forall {context : Context} {actions : List Action}
    (each : ∀ action ∈ actions, (action.bytes context).length = action.size context) :
    (allBytes context actions).length = totalSize context actions := by
  rw [allBytes_eq_flatMap, totalSize_eq_sumOver, length_flatMap_eq_sumOver each]

theorem length_regionsBytes_of_forall {context : Context} {fields : Block (List Action)}
    (each : ∀ region ∈ fields.regions,
      (allBytes context region).length = totalSize context region) :
    (regionsBytes context fields).length = regionsSize context fields := by
  rw [regionsBytes_eq_flatMap, regionsSize_eq_sumOver, length_flatMap_eq_sumOver each]

/-- The written form of an action has the size that was computed from its fields. -/
theorem length_bytes (context : Context) (action : Action) :
    (action.bytes context).length = action.size context := by
  induction action using induction with
  | basic op => simp [bytes, size]
  | plain fields => rw [bytes, size, length_headed, Plain.length_bytes]
  | block fields ih =>
      have regions := length_regionsBytes_of_forall fun region member =>
        length_allBytes_of_forall (ih region member)
      rw [bytes, size, List.length_append, length_headed, Block.length_bytes, Block.headerSize_map,
        regions]
  | call => rfl
  | unknown opcode body =>
      rw [bytes, size]
      cases isFixedForm opcode with
      | true => rfl
      | false => exact length_headed opcode body

theorem length_allBytes (context : Context) (actions : List Action) :
    (allBytes context actions).length = totalSize context actions :=
  length_allBytes_of_forall fun action _ => action.length_bytes context

theorem length_regionsBytes (context : Context) (fields : Block (List Action)) :
    (regionsBytes context fields).length = regionsSize context fields :=
  length_regionsBytes_of_forall fun region _ => length_allBytes context region

/-- An action that can be written, its regions apart. -/
def Fits (context : Context) : Action → Prop
  | plain fields => fields.Writable context ∧ fields.headerSize context ≤ 65535
  | block fields =>
    fields.Writable context ∧ fields.headerSize context ≤ 65535 ∧
      ∀ region ∈ fields.regions, totalSize context region ≤ 65535
  | unknown opcode body => isFixedForm opcode = true ∨ body.length ≤ 65535
  | _ => True

theorem emits_regionSize (context : Context) (opcode : UInt8) (region : List Action) :
    Writer.Emits (regionSize context opcode region) (totalSize context region ≤ 65535) []
      (UInt16.ofNat (totalSize context region)) := by
  unfold regionSize
  dsimp only
  by_cases small : totalSize context region ≤ 65535
  · rw [if_pos small]
    exact (Writer.emits_pure _).congr (by simp [small])
  · rw [if_neg small]
    exact (Writer.emits_throw _).congr (by simp [small])

theorem emits_writeBlockFields (context : Context) (fields : Block (List Action)) :
    Writer.Emits (writeBlockFields context fields)
      ((∀ region ∈ fields.regions, totalSize context region ≤ 65535) ∧ fields.Writable context)
      ((fields.map fun region => UInt16.ofNat (totalSize context region)).bytes context) () := by
  have composed := (Block.emits_visit (emits_regionSize context fields.opcode) fields).bind
    (fun sized => sized.write context) (Block.emits_write context _)
  exact composed.congr (by simp)

/-- The length of a header is settled whatever the sizes of the regions are. -/
theorem length_sizedHeader (context : Context) (fields : Block (List Action)) :
    ((fields.map fun region => UInt16.ofNat (totalSize context region)).bytes context).length =
      fields.headerSize context := by
  rw [Block.length_bytes, Block.headerSize_map]

/-- The comparison of a header with its length never fails if the fields take that length. -/
theorem emits_compared {fields : Writer Unit} {possible : Prop} {header : List UInt8}
    (opcode : UInt8) {length : Nat} (emits : Writer.Emits fields possible header ())
    (settled : header.length = length) :
    Writer.Emits
      (do
        let start := (← get).position
        fields
        let written := (← get).position - start
        if written ≠ length then throw (.lengthMismatch opcode length written))
      possible header () := by
  intro buffer result after
  have written : (buffer.append header).position - buffer.position = length := by
    rw [Buffer.position_append, settled, Nat.add_sub_cancel_left]
  constructor
  · intro success
    obtain ⟨_, _, start, success⟩ := bind_eq_ok_iff.mp success
    cases start
    obtain ⟨_, _, writeFields, success⟩ := bind_eq_ok_iff.mp success
    obtain ⟨holds, rfl, rfl⟩ := (emits _ _ _).mp writeFields
    obtain ⟨_, _, stop, success⟩ := bind_eq_ok_iff.mp success
    cases stop
    rw [if_neg (not_not.mpr written)] at success
    cases success
    exact ⟨holds, rfl, rfl⟩
  · rintro ⟨holds, rfl, rfl⟩
    refine bind_eq_ok_iff.mpr ⟨buffer, buffer, rfl, ?_⟩
    refine bind_eq_ok_iff.mpr ⟨(), _, emits.run holds buffer, ?_⟩
    refine bind_eq_ok_iff.mpr ⟨_, _, rfl, ?_⟩
    rw [if_neg (not_not.mpr written)]
    rfl

theorem emits_writeHeader {fields : Writer Unit} {possible : Prop} {header : List UInt8}
    (opcode : UInt8) {length : Nat} (emits : Writer.Emits fields possible header ())
    (settled : header.length = length) :
    Writer.Emits (writeHeader opcode length fields) (length ≤ 65535 ∧ possible)
      (headed opcode header) () := by
  have composed := (Writer.emits_block [opcode]).andThen
    ((Writer.emits_block (Wire.bytesOf16 (UInt16.ofNat length))).andThen
      (emits_compared opcode emits settled))
  unfold writeHeader
  by_cases long : 65535 < length
  · rw [if_pos long]
    intro buffer result after
    change EStateM.Result.error _ _ = _ ↔ _
    simp [Nat.not_le.mpr long]
  · rw [if_neg long, headed, counted, settled]
    exact composed.congr (by simp [Nat.le_of_not_lt long])

theorem emits_writeUnknown (opcode : UInt8) (body : List UInt8) :
    Writer.Emits (writeUnknown opcode body) (isFixedForm opcode = true ∨ body.length ≤ 65535)
      (if isFixedForm opcode then [opcode] else headed opcode body) () := by
  unfold writeUnknown
  by_cases fixed : isFixedForm opcode = true
  · rw [if_pos fixed, if_pos fixed]
    have composed := (Writer.emits_block [opcode]).andThen (Writer.emits_pure ())
    exact composed.congr (by simp [fixed])
  · rw [if_neg fixed, if_neg fixed]
    by_cases long : 65535 < body.length
    · rw [if_pos long]
      intro buffer result after
      change EStateM.Result.error _ _ = _ ↔ _
      simp [fixed, Nat.not_le.mpr long]
    · rw [if_neg long]
      have composed := (Writer.emits_block [opcode]).andThen
        ((Writer.emits_block (Wire.bytesOf16 (UInt16.ofNat body.length))).andThen
          (Writer.emits_block body))
      exact composed.congr (by simp [Nat.le_of_not_lt long])

theorem emits_writeAll_of_forall {context : Context} {actions : List Action}
    (each : ∀ action ∈ actions, Writer.Emits (write context action)
      (Throughout (Fits context) [action]) (action.bytes context) ()) :
    Writer.Emits (writeAll context actions) (Throughout (Fits context) actions)
      (allBytes context actions) () := by
  induction actions with
  | nil => exact (Writer.emits_pure ()).congr (by simp [throughout_nil])
  | cons first rest ih =>
      rw [List.forall_mem_cons] at each
      have composed := each.1.andThen (ih each.2)
      exact composed.congr throughout_cons.symm

theorem emits_writeRegions_of_forall {context : Context} {fields : Block (List Action)}
    (each : ∀ region ∈ fields.regions, Writer.Emits (writeAll context region)
      (Throughout (Fits context) region) (allBytes context region) ()) :
    Writer.Emits (writeRegions context fields)
      (∀ region ∈ fields.regions, Throughout (Fits context) region) (regionsBytes context fields)
      () := by
  cases fields with
  | tryCatch tryBody target catchBody finallyBody =>
      simp only [Block.regions, List.forall_mem_cons] at each ⊢
      have composed := each.1.andThen (each.2.1.andThen each.2.2.1)
      exact composed.congr (by simp)
  | _ =>
      simp only [Block.regions, List.forall_mem_cons] at each ⊢
      exact each.1.congr (by simp)

/-- An action is written in its written form exactly if all fits in it and inside it. -/
theorem emits_write (context : Context) (action : Action) :
    Writer.Emits (write context action) (Throughout (Fits context) [action])
      (action.bytes context) () := by
  induction action using induction with
  | basic op =>
      rw [throughout_single (by simp)]
      exact Writer.emits_block [op.opcode]
  | plain fields =>
      rw [throughout_single (by simp)]
      have header := emits_writeHeader fields.opcode (Plain.emits_write context fields)
        (Plain.length_bytes context fields)
      exact header.congr and_comm
  | block fields ih =>
      rw [throughout_block]
      have header := emits_writeHeader fields.opcode (emits_writeBlockFields context fields)
        (length_sizedHeader context fields)
      have composed := header.andThen (emits_writeRegions_of_forall fun region member =>
        emits_writeAll_of_forall (ih region member))
      refine composed.congr ?_
      simp only [Fits]
      tauto
  | call =>
      rw [throughout_single (by simp)]
      have composed := (Writer.emits_block [callOpcode]).andThen
        (Writer.emits_block (Wire.bytesOf16 0))
      exact composed.congr (by simp [Fits])
  | unknown opcode body =>
      rw [throughout_single (by simp)]
      exact emits_writeUnknown opcode body

theorem encodeAll_eq_ok_iff (context : Context) (actions : List Action) (bytes : List UInt8) :
    encodeAll context actions = .ok bytes ↔
      Throughout (Fits context) actions ∧ bytes = allBytes context actions :=
  (emits_writeAll_of_forall fun action _ => emits_write context action).output_eq_ok_iff bytes

end Action

end ActionStream
