import ActionStream.Proofs.Action.Constructors
import ActionStream.Proofs.Action.Rewriting
import ActionStream.Proofs.Interchange.Fields

/-!
# Actions are read back from JSON

The decoder for lists of actions recovers a list from its JSON form up to the number of levels that
it has.  Apart from the levels it refuses only what a constructor would refuse: a property with
another code than can be asked for, flags that are not defined and parameters bound to registers
that a function does not have.  Whether a text of actions is read back can therefore be told from
the text's nesting and from the actions.
-/

namespace ActionStream

open Json

theorem RegisterParam.whole_toJson (param : RegisterParam) : param.toJson.Whole := by
  obtain ⟨register, name⟩ := param
  apply Value.Whole.object
  cases register <;> simp [RegisterIndex.toJson]

theorem RegisterParam.recovers_toJson {bound : Nat} (param : RegisterParam) :
    Recovers bound RegisterParam.decoder param.toJson True param := by
  apply Recovers.mono _ (Nat.le_succ bound)
  obtain ⟨register, name⟩ := param
  cases register with
  | none =>
      exact recovers_record
        (fills_defaulted none (recovers_none _)
          (fills_required (recovers_text name) fills_done)) rfl
        (by simp)
  | some index =>
      have present : index.toJson ≠ .null := by
        intro same
        cases same
      exact recovers_record
        (fills_defaulted none (index.recovers_toJson.some present)
          (fills_required (recovers_text name) fills_done)) rfl
        (by simp)

theorem CatchTarget.whole_toJson (target : CatchTarget) : target.toJson.Whole := by
  cases target with
  | name text => exact whole_tagged (.text text)
  | register index => exact whole_tagged (whole_natural _)

theorem CatchTarget.recovers_toJson {bound : Nat} (target : CatchTarget) :
    Recovers bound CatchTarget.decoder target.toJson True target := by
  apply Recovers.mono _ (Nat.le_succ bound)
  cases target with
  | name text => exact recovers_carrying rfl ((recovers_text text).mapped CatchTarget.name)
  | register index =>
      exact recovers_carrying rfl (index.recovers_toJson.mapped CatchTarget.register)

namespace Block

variable {bound : Nat}

theorem whole_contentJson {fields : Block Value} (each : ∀ region ∈ fields.regions, region.Whole) :
    fields.contentJson.Whole := by
  cases fields with
  | defineFunction name params body =>
      simp only [regions, List.forall_mem_singleton] at each
      exact .object (by simp [each])
  | defineFunction2 name registerCount flags params body =>
      simp only [regions, List.forall_mem_singleton] at each
      have paramsWhole : (Value.listOf (params.map RegisterParam.toJson)).Whole :=
        whole_listOf_map fun param _ => param.whole_toJson
      exact .object (by simp [each, paramsWhole, FunctionFlags.toJson])
  | tryCatch tryBody target catchBody finallyBody =>
      simp only [regions, List.forall_mem_cons] at each
      exact .object (by simp [each, target.whole_toJson])
  | withObject body =>
      simp only [regions, List.forall_mem_singleton] at each
      exact .object (by simp [each])

/-- A header with regions is read back if its regions are. -/
theorem recovers_draft {decoder : Decoder (List Action)} {json : List Action → Value}
    {possible : List Action → Prop} {fields : Block (List Action)}
    (each : ∀ region ∈ fields.regions,
      Recovers bound decoder (json region) (possible region) region) :
    Recovers bound (Block.draftDecoder decoder fields.kind) (fields.map json).contentJson
      (∀ region ∈ fields.regions, possible region) fields := by
  apply Recovers.mono _ (Nat.le_succ bound)
  cases fields with
  | defineFunction name params body =>
      simp only [regions, List.forall_mem_singleton] at each
      exact recovers_record
        (fills_required (recovers_text name)
          (fills_required (recovers_texts params)
            (fills_required each fills_done))) rfl
        (by simp [regions])
  | defineFunction2 name registerCount flags params body =>
      simp only [regions, List.forall_mem_singleton] at each
      have flagsRecovered : Recovers bound FunctionFlags.decoder flags.toJson True flags :=
        (recovers_word16 flags.bits).mapped _
      have paramsRecovered : Recovers bound (Decoder.listOf RegisterParam.decoder)
          (.listOf (params.map RegisterParam.toJson)) (∀ param ∈ params, True) params :=
        (recovers_listOf fun param _ => param.recovers_toJson).mono (Nat.le_succ bound)
      exact recovers_record
        (fills_required (recovers_text name)
          (fills_required (recovers_word8 registerCount)
            (fills_defaulted _ flagsRecovered
              (fills_required paramsRecovered
                (fills_required each fills_done))))) rfl
        (by simp [regions])
  | tryCatch tryBody target catchBody finallyBody =>
      simp only [regions, List.forall_mem_cons] at each
      exact recovers_record
        (fills_required each.1
          (fills_defaulted _ target.recovers_toJson
            (fills_defaulted _ each.2.1
              (fills_defaulted _ each.2.2.1 fills_done)))) rfl
        (by simp [regions])
  | withObject body =>
      simp only [regions, List.forall_mem_singleton] at each
      exact recovers_record (fills_required each fills_done) rfl
        (by simp [regions])

/-- A header with defined flags and with parameters that are bound to registers of the function. -/
def Regular {Region : Type} : Block Region → Prop
  | defineFunction2 _ registerCount flags params _ =>
    flags.reserved = 0 ∧ ∀ param ∈ params, ∀ register ∈ param.register,
      1 ≤ register.toNat ∧ register.toNat < registerCount.toNat
  | defineFunction _ _ _ | tryCatch _ _ _ _ | withObject _ => True

instance {Region : Type} : DecidablePred (Regular : Block Region → Prop)
  | defineFunction2 _ _ _ _ _ => inferInstanceAs (Decidable (_ ∧ _))
  | defineFunction _ _ _ | tryCatch _ _ _ _ | withObject _ => isTrue trivial

theorem lawful_iff_regular {Region : Type} {fields : Block Region}
    (counted : ∀ count ∈ fields.counts, count ≤ 65535) : fields.Lawful ↔ fields.Regular := by
  cases fields with
  | defineFunction name params body =>
      exact iff_of_true (counted _ (List.mem_singleton_self _)) trivial
  | defineFunction2 name registerCount flags params body =>
      have short : params.length ≤ 65535 := counted _ (List.mem_singleton_self _)
      have bound (register : RegisterIndex) :
          (register.value ≠ 0 ∧ register.value < registerCount) ↔
            (1 ≤ register.toNat ∧ register.toNat < registerCount.toNat) := by
        rw [UInt8.lt_iff_toNat_lt, ← UInt8.toNat_inj.ne, Nat.one_le_iff_ne_zero]
        rfl
      simp only [Lawful, Regular, short, true_and, RegisterParam.BoundBelow, bound,
        Option.mem_def]
  | _ => exact Iff.rfl

end Block

namespace Action

/-- An action that a constructor gives or that is decoded: its counts fit their fields, and an
opaque action has an opcode without a form of its own and no more bytes than such an action may
have. -/
def Obtainable : Action → Prop
  | plain fields => ∀ count ∈ fields.counts, count ≤ 65535
  | block fields => ∀ count ∈ fields.counts, count ≤ 65535
  | unknown opcode body =>
    isKnownOpcode opcode = false ∧ body.length ≤ greatestUnknownLength opcode
  | basic _ | call => True

/-- An action that reading does not refuse, its regions apart. -/
def Regular : Action → Prop
  | plain fields => fields.Regular
  | block fields => fields.Regular
  | basic _ | call | unknown _ _ => True

/-- An action without floating-point operands. -/
def NoDouble : Action → Prop
  | plain fields => fields.NoDouble
  | basic _ | block _ | call | unknown _ _ => True

instance : DecidablePred Obtainable
  | plain fields => inferInstanceAs (Decidable (∀ count ∈ fields.counts, count ≤ 65535))
  | block fields => inferInstanceAs (Decidable (∀ count ∈ fields.counts, count ≤ 65535))
  | unknown opcode body =>
    inferInstanceAs
      (Decidable (isKnownOpcode opcode = false ∧ body.length ≤ greatestUnknownLength opcode))
  | basic _ | call => isTrue trivial

instance : DecidablePred Regular
  | plain fields => inferInstanceAs (Decidable fields.Regular)
  | block fields => inferInstanceAs (Decidable fields.Regular)
  | basic _ | call | unknown _ _ => isTrue trivial

instance : DecidablePred NoDouble
  | plain fields => inferInstanceAs (Decidable fields.NoDouble)
  | basic _ | block _ | call | unknown _ _ => isTrue trivial

section Origins

theorem obtainable_of_plainChecked {fields built : Plain} (success : fields.checked = .ok built) :
    (plain built).Obtainable := by
  cases fields with
  | constantPool strings =>
      rw [Plain.checked] at success
      split at success
      next short =>
        cases success
        exact List.forall_mem_singleton.mpr short
      next => cases success
  | _ =>
      cases success
      exact List.forall_mem_nil _

theorem obtainable_of_blockChecked {fields built : Block (List Action)}
    (success : fields.checked = .ok built) : (block built).Obtainable := by
  obtain ⟨lawful, rfl⟩ := Block.checked_eq_ok_iff.mp success
  cases built with
  | defineFunction name params body => exact List.forall_mem_singleton.mpr lawful
  | defineFunction2 name registerCount flags params body =>
      exact List.forall_mem_singleton.mpr lawful.1
  | tryCatch tryBody target catchBody finallyBody => exact List.forall_mem_nil _
  | withObject body => exact List.forall_mem_nil _

theorem obtainable_of_unknownChecked {opcode : UInt8} {body : List UInt8} {action : Action}
    (built : unknownChecked opcode body = .ok action) : action.Obtainable := by
  obtain ⟨unnamed, short, rfl⟩ := unknownChecked_eq_ok_iff.mp built
  exact ⟨unnamed, short⟩

theorem obtainable_of_decodeAll {context : Context} {bytes : List UInt8} {actions : List Action}
    (decoded : decodeAll context bytes = .ok actions) : Throughout Obtainable actions := by
  intro action within
  obtain ⟨fits, producible, -, -⟩ := (stream_of_decodeAll decoded).1.readable action within
  have counted : ∀ count ∈ action.counts, count ≤ 65535 := by
    intro count member
    have short := ((fits_iff producible).mp fits).2.1
    exact Nat.le_trans (count_le_headerLength member) short
  cases action with
  | unknown opcode body =>
      refine ⟨producible.1, ?_⟩
      rw [greatestUnknownLength]
      split
      next fixed => exact Nat.le_of_eq (congrArg List.length (producible.2 fixed))
      next notFixed => exact fits.resolve_left notFixed
  | plain fields => exact counted
  | block fields => exact counted
  | basic op => trivial
  | call => trivial

end Origins

section Forms

theorem itemsOnto_eq (found : List Value) (actions : List Action) :
    itemsOnto found actions = found.reverse ++ actions.map toJson := by
  induction actions generalizing found with
  | nil => rw [itemsOnto, List.map_nil, List.append_nil]
  | cons first rest ih =>
      rw [itemsOnto, ih, List.reverse_cons, List.append_assoc]
      rfl

theorem allToJson_eq (actions : List Action) :
    allToJson actions = .listOf (actions.map toJson) := by
  rw [allToJson, itemsOnto_eq]
  rfl

theorem regionsToJson_eq (fields : Block (List Action)) :
    regionsToJson fields = fields.map allToJson := by
  cases fields <;> rfl

theorem whole_allToJson_of_forall {actions : List Action}
    (each : ∀ action ∈ actions, action.toJson.Whole) : (allToJson actions).Whole := by
  rw [allToJson_eq]
  exact whole_listOf_map each

theorem whole_toJson (action : Action) (noDouble : Throughout NoDouble [action]) :
    action.toJson.Whole := by
  induction action using induction with
  | basic op => exact whole_tagged (.text op.name)
  | plain fields =>
      rw [throughout_single (by simp)] at noDouble
      exact whole_tagged (Plain.whole_contentJson noDouble)
  | block fields ih =>
      rw [throughout_block] at noDouble
      rw [toJson, regionsToJson_eq]
      apply whole_tagged
      apply Block.whole_contentJson
      rw [Block.regions_map, List.forall_mem_map]
      intro region member
      exact whole_allToJson_of_forall fun inner within =>
        ih region member inner within ((noDouble.2 region member).of_mem within)
  | call => exact .text _
  | unknown opcode body =>
      apply whole_tagged
      have bodyWhole : (Value.listOf (body.map fun byte => .natural byte.toNat)).Whole :=
        whole_listOf_map fun byte _ => whole_natural byte.toNat
      exact .object (by simp [bodyWhole])

theorem whole_allToJson {actions : List Action} (noDouble : Throughout NoDouble actions) :
    (allToJson actions).Whole :=
  whole_allToJson_of_forall fun action member => action.whole_toJson (noDouble.of_mem member)

end Forms

section Decoders

/-- The name of a kind without regions chooses the decoder for its header. -/
theorem contentDecoder_plain (region : Decoder (List Action)) (kind : PlainKind) :
    contentDecoder region kind.name = some (.mapped (Plain.contentDecoder kind) plain) := by
  cases kind <;> rfl

theorem contentDecoder_block (region : Decoder (List Action)) (kind : BlockKind) :
    contentDecoder region kind.name = some (.mapped (Block.contentDecoder region kind) block) := by
  cases kind <;> rfl

theorem recovers_allToJson_of_forall {actions : List Action}
    (each : ∀ action ∈ actions, ∀ lists,
      Recovers lists (decoderWith (nestedDecoder lists)) action.toJson
        (Throughout Regular [action]) action) (lists : Nat) :
    Recovers lists (nestedDecoder lists) (allToJson actions) (Throughout Regular actions)
      actions := by
  rw [allToJson_eq]
  cases lists with
  | zero =>
      intro levels none
      rw [Value.depth_listOf, Nat.le_zero.mp none]
      exact (yields_error _ actions).congr (by simp)
  | succ lists =>
      have recovers := recovers_listOf fun action member => each action member lists
      exact recovers.congr throughout_iff_forall_mem.symm

theorem recovers_toJson (action : Action) (obtainable : Throughout Obtainable [action])
    (noDouble : Throughout NoDouble [action]) (lists : Nat) :
    Recovers lists (decoderWith (nestedDecoder lists)) action.toJson (Throughout Regular [action])
      action := by
  apply Recovers.mono _ (Nat.le_succ lists)
  induction action using induction generalizing lists with
  | basic op =>
      rw [throughout_single (by simp)]
      exact recovers_carrying rfl ((recovers_alone op.ofName?_name).mapped basic)
  | plain fields =>
      rw [throughout_single (by simp)] at obtainable noDouble ⊢
      exact recovers_carrying (contentDecoder_plain _ fields.kind)
        ((Plain.recovers_contentJson obtainable noDouble).mapped plain)
  | block fields ih =>
      rw [throughout_block] at obtainable noDouble ⊢
      rw [toJson, regionsToJson_eq]
      have regions : ∀ region ∈ fields.regions, Recovers lists (nestedDecoder lists)
          (allToJson region) (Throughout Regular region) region := by
        intro region member
        apply recovers_allToJson_of_forall
        intro inner within lists
        exact (ih region member inner within ((obtainable.2 region member).of_mem within)
          ((noDouble.2 region member).of_mem within) lists).mono (Nat.le_succ lists)
      have ruled : Yields fields.checked fields.Lawful fields :=
        fun _ => Block.checked_eq_ok_iff
      apply recovers_carrying (contentDecoder_block _ fields.kind)
      apply Recovers.mapped
      apply ((Block.recovers_draft regions).checked ruled).congr
      rw [Block.lawful_iff_regular obtainable.1, and_comm]
      rfl
  | call =>
      rw [throughout_single (by simp)]
      exact recovers_alone rfl
  | unknown opcode body =>
      rw [throughout_single (by simp)] at obtainable ⊢
      have bodyRecovered : Recovers lists (Decoder.listOf Decoder.word8)
          (.listOf (body.map fun byte => .natural byte.toNat)) (∀ byte ∈ body, True) body :=
        (recovers_listOf fun byte _ => recovers_word8 byte).mono (Nat.le_succ lists)
      have made : Yields (unknownChecked opcode body) True (unknown opcode body) := by
        intro result
        rw [unknownChecked_eq_ok_iff, ← and_assoc]
        exact and_congr_left fun _ => iff_true_intro obtainable
      have recovers : Recovers (lists + 1) unknownDecoder (unknownContentJson opcode body) _ _ :=
        recovers_checkedRecord
          (fills_required (recovers_word8 opcode) (fills_defaulted _ bodyRecovered fills_done)) made
      exact recovers_carrying rfl ((recovers.mono (Nat.le_succ lists)).congr (by simp [Regular]))

/-- A list of actions is recovered with any number of levels. -/
theorem yields_listDecoder {actions : List Action} (obtainable : Throughout Obtainable actions)
    (noDouble : Throughout NoDouble actions) (levels : Nat) :
    Yields (listDecoder levels (allToJson actions))
      ((allToJson actions).depth ≤ levels ∧ Throughout Regular actions) actions := by
  have recovers := recovers_allToJson_of_forall
    fun action member lists => action.recovers_toJson (obtainable.of_mem member)
      (noDouble.of_mem member) lists
  exact recovers levels levels (Nat.le_refl levels)

end Decoders

/-- The compact and the indented text of obtainable actions without floating-point operands give
the actions back exactly if at most 127 lists and objects are open at a time in the text and every
action is regular.  Otherwise the text is refused, so it never gives other actions. -/
theorem ofJsonText_written_iff {actions : List Action}
    (obtainable : Throughout Obtainable actions) (noDouble : Throughout NoDouble actions) :
    ∀ text ∈ [Json.compact (allToJson actions), Json.indented (allToJson actions)],
      (ofJsonText text = .ok actions ↔ mostOpen text ≤ 127 ∧ Throughout Regular actions) ∧
      (¬ (mostOpen text ≤ 127 ∧ Throughout Regular actions) →
        ∃ refusal, ofJsonText text = .error refusal) := by
  intro text written
  have whole := whole_allToJson noDouble
  have yields : Yields (ofJsonText text) (mostOpen text ≤ 127 ∧ Throughout Regular actions)
      actions := by
    rw [mostOpen_of_mem_writtenForms whole written]
    have composed := (yields_listDecoder obtainable noDouble deepestOpen).bind
      (fun found => .ok found) (yields_ok actions)
    have read : ofJsonText text =
        listDecoder deepestOpen (allToJson actions) >>= fun found => .ok found := by
      rw [ofJsonText, decodeText, ofText_of_mem_writtenForms whole written]
      rfl
    rw [read]
    exact composed.congr (and_iff_left trivial)
  refine ⟨?_, (yields_iff.mp yields).2⟩
  rw [yields actions]
  exact and_iff_left rfl

/-- A function whose parameter is bound to a register and that pushes a property. -/
def propertyFunction (register : UInt8) (code : Int32) : List Action :=
  [.block (.defineFunction2 "f" 3 ⟨1⟩ [⟨some ⟨register⟩, "a"⟩]
    [.plain (.push [.property ⟨code⟩, .text "\"\n"])])]

/-- The last register and the greatest code are read back, the next ones are refused. -/
theorem ofJsonText_written_iff_propertyFunction :
    ofJsonText (Json.compact (allToJson (propertyFunction 2 16777216))) =
      .ok (propertyFunction 2 16777216) ∧
    (∃ refusal, ofJsonText (Json.indented (allToJson (propertyFunction 3 16777216))) =
      .error refusal) ∧
    ∃ refusal, ofJsonText (Json.indented (allToJson (propertyFunction 2 16777217))) =
      .error refusal := by
  have obtainable (register : UInt8) (code : Int32) :
      Throughout Obtainable (propertyFunction register code) := of_decide_eq_true rfl
  have noDouble (register : UInt8) (code : Int32) :
      Throughout NoDouble (propertyFunction register code) := of_decide_eq_true rfl
  refine ⟨?_, ?_, ?_⟩
  · have written := ofJsonText_written_iff (obtainable 2 16777216) (noDouble 2 16777216) _
      List.mem_cons_self
    have shallow := mostOpen_of_mem_writtenForms (whole_allToJson (noDouble 2 16777216))
      List.mem_cons_self
    exact written.1.mpr ⟨Nat.le_trans (Nat.le_of_eq shallow) (by decide), by decide⟩
  · have written := ofJsonText_written_iff (obtainable 3 16777216) (noDouble 3 16777216) _
      (List.mem_cons_of_mem _ List.mem_cons_self)
    exact written.2 fun both => absurd both.2 (by decide)
  · have written := ofJsonText_written_iff (obtainable 2 16777217) (noDouble 2 16777217) _
      (List.mem_cons_of_mem _ List.mem_cons_self)
    exact written.2 fun both => absurd both.2 (by decide)

end Action

end ActionStream
