import ActionStream.Proofs.Action.RoundTrip

/-!
# What a written form is read as

The written form of a list is a stream even where its actions are not read back: a property operand
whose word stands for another operand is read as that one.  Nothing else is read as anything else,
and no operand holds a region, so the regions of the stream nest as those of the list.
-/

namespace ActionStream

section Operands

variable (context : Context)

/-- The operand that the written form of an operand is read as. -/
def PushValue.settled : PushValue → PushValue
  | property known => ofPropertyWord context (known.wireWord context.propertiesAsFloat)
  | propertyWord word => ofPropertyWord context word
  | value => value

variable (value : PushValue)

theorem PushValue.bytes_settled : (value.settled context).bytes context = value.bytes context := by
  cases value with
  | property known => exact bytes_ofPropertyWord context _
  | propertyWord word => exact bytes_ofPropertyWord context word
  | _ => rfl

theorem PushValue.readsBack_settled : (value.settled context).ReadsBack context := by
  cases value with
  | property known => exact readsBack_ofPropertyWord context _
  | propertyWord word => exact readsBack_ofPropertyWord context word
  | _ => trivial

theorem PushValue.writable_settled {value : PushValue} (writable : value.Writable context) :
    (value.settled context).Writable context := by
  cases value with
  | property known => exact writable_ofPropertyWord context _
  | propertyWord word => exact writable_ofPropertyWord context word
  | _ => exact writable

/-- The fields that the written form of fields is read as. -/
def Plain.settled : Plain → Plain
  | push values => push (values.map (PushValue.settled context))
  | fields => fields

namespace Plain

variable (fields : Plain)

theorem opcode_settled : (fields.settled context).opcode = fields.opcode := by
  cases fields <;> rfl

theorem bytes_settled : (fields.settled context).bytes context = fields.bytes context := by
  cases fields with
  | push values => simp [settled, bytes, List.flatMap_map, PushValue.bytes_settled]
  | _ => rfl

theorem headerSize_settled :
    (fields.settled context).headerSize context = fields.headerSize context := by
  rw [← length_bytes, bytes_settled, length_bytes]

theorem readsBack_settled : (fields.settled context).ReadsBack context := by
  cases fields with
  | push values =>
      rw [settled, ReadsBack, List.forall_mem_map]
      exact fun value _ => value.readsBack_settled context
  | _ => trivial

theorem writable_settled {fields : Plain} (writable : fields.Writable context) :
    (fields.settled context).Writable context := by
  cases fields with
  | push values =>
      rw [settled, Writable, List.forall_mem_map]
      exact fun value member => PushValue.writable_settled context (writable value member)
  | _ => exact writable

end Plain

end Operands

namespace Action

variable {context : Context}

/-- An action whose written form is a form of some action, its regions apart. -/
def Formable (context : Context) (action : Action) : Prop :=
  action.Fits context ∧ action.Producible ∧ (context.lenient = true ∨ action.Unreserved)

/-- Lists are read as their members are, one behind the other. -/
theorem exists_stream_of_forall {actions : List Action}
    (each : ∀ action ∈ actions, ∃ other,
      ActionForm context (Stream context) (action.bytes context) other ∧
        other.nesting = action.nesting) :
    ∃ others, Stream context (allBytes context actions) others ∧
      listNesting others = listNesting actions ∧ openNesting others = openNesting actions := by
  induction actions with
  | nil => exact ⟨[], .nil, rfl, rfl⟩
  | cons first rest ih =>
      rw [List.forall_mem_cons] at each
      obtain ⟨⟨other, form, sameNesting⟩, eachOther⟩ := each
      obtain ⟨others, stream, sameNestings, -⟩ := ih eachOther
      refine ⟨other :: others, .cons form stream, ?_, ?_⟩
      · rw [listNesting, listNesting, sameNesting, sameNestings]
      · rw [openNesting, openNesting, sameNesting, sameNestings]

theorem nesting_block_map {fields : Block (List Action)} {others : List Action → List Action}
    (same : ∀ region ∈ fields.regions, openNesting (others region) = openNesting region) :
    (block (fields.map others)).nesting = (block fields).nesting := by
  cases fields <;> simp_all [Block.map, Block.regions, nesting, regionsNesting]

/-- The written form of an action is a form of an action that nests as deep. -/
theorem exists_form (action : Action) (formable : Throughout (Formable context) [action]) :
    ∃ other, ActionForm context (Stream context) (action.bytes context) other ∧
      other.nesting = action.nesting := by
  induction action using induction with
  | plain fields =>
      rw [throughout_single (by simp)] at formable
      obtain ⟨⟨writable, short⟩, -, -⟩ := formable
      have readable : Throughout (Readable context) [plain (fields.settled context)] := by
        rw [throughout_single (by simp)]
        refine ⟨⟨Plain.writable_settled context writable, ?_⟩, trivial, .inr trivial,
          fields.readsBack_settled context⟩
        rwa [Plain.headerSize_settled]
      have form := bytes_form _ readable
      rw [bytes, Plain.opcode_settled, Plain.bytes_settled] at form
      exact ⟨_, form, rfl⟩
  | block fields ih =>
      rw [throughout_block] at formable
      obtain ⟨⟨fits, registered, unreserved⟩, inside⟩ := formable
      have regions : ∀ region ∈ fields.regions, ∃ others,
          Stream context (allBytes context region) others ∧
            listNesting others = listNesting region ∧ openNesting others = openNesting region :=
        fun region ofFields => exists_stream_of_forall fun inner member =>
          ih region ofFields inner member ((inside region ofFields).of_mem member)
      choose! others streams _ sameNesting using regions
      exact ⟨_, block_form fits registered unreserved others streams,
        nesting_block_map sameNesting⟩
  | _ =>
      rw [throughout_single (by simp)] at formable
      obtain ⟨fits, producible, unreserved⟩ := formable
      refine ⟨_, bytes_form _ ?_, rfl⟩
      rw [throughout_single (by simp)]
      exact ⟨fits, producible, unreserved, trivial⟩

/-- The written form of a list is a stream of a list that nests as deep. -/
theorem exists_stream_allBytes {actions : List Action}
    (formable : Throughout (Formable context) actions) :
    ∃ others, Stream context (allBytes context actions) others ∧
      listNesting others = listNesting actions := by
  obtain ⟨others, stream, sameNesting, -⟩ := exists_stream_of_forall fun action member =>
    exists_form action (formable.of_mem member)
  exact ⟨others, stream, sameNesting⟩

end Action

end ActionStream
