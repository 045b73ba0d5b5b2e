import ActionStream.Interchange.Decode
import ActionStream.Proofs.Action.Encodable
import ActionStream.Proofs.Json.Recovering

/-!
# The fields of actions in JSON

Operands, headers without regions, parameters and catch targets are whole JSON values and are read
back from them.  Floating-point operands apart, the one thing that reading refuses in them is a
property whose code could not have been asked for.
-/

namespace ActionStream

open Json

/-! The name of a kind tells which kind it is. -/

theorem BasicOp.mem_all (op : BasicOp) : op ∈ all := by
  cases op <;> decide +kernel

theorem BasicOp.ofName?_name (op : BasicOp) : ofName? op.name = some op := by
  have each : ∀ op ∈ all, ofName? op.name = some op := by decide +kernel
  exact each op op.mem_all

theorem SendMethod.ofName?_name (method : SendMethod) : ofName? method.name = some method := by
  cases method <;> rfl

theorem PlainKind.ofName?_name (kind : PlainKind) : ofName? kind.name = some kind := by
  cases kind <;> rfl

theorem BlockKind.ofName?_name (kind : BlockKind) : ofName? kind.name = some kind := by
  cases kind <;> rfl

namespace Json

theorem whole_natural (number : Nat) : (Value.natural number).Whole :=
  .integer number

theorem whole_texts (texts : List String) : (Value.texts texts).Whole := by
  apply Value.Whole.list
  rw [List.forall_mem_map]
  exact fun text _ => .text text

theorem whole_tagged {name : String} {content : Value} (whole : content.Whole) :
    (Value.tagged name content).Whole :=
  .object (List.forall_mem_singleton.mpr whole)

theorem whole_listOf_map {α : Type} {values : List α} {json : α → Value}
    (each : ∀ value ∈ values, (json value).Whole) : (Value.listOf (values.map json)).Whole :=
  .list (List.forall_mem_map.mpr each)

attribute [simp] Value.Whole.null Value.Whole.boolean Value.Whole.integer Value.Whole.text
  whole_natural whole_texts

theorem recovers_texts {bound : Nat} (texts : List String) :
    Recovers bound (Decoder.listOf Decoder.text) (.texts texts) True texts :=
  ((recovers_listOf fun text _ => recovers_text text).mono (Nat.le_succ bound)).congr (by simp)

end Json

section Indices

variable {bound : Nat}

theorem RegisterIndex.recovers_toJson (register : RegisterIndex) :
    Recovers bound RegisterIndex.decoder register.toJson True register := by
  have small : register.toNat ≤ 255 := Nat.le_of_lt_succ register.value.toNat_lt
  have ruled : Yields (ofNat register.toNat) True register := by
    rw [ofNat, if_pos small, toNat, UInt8.ofNat_toNat]
    exact yields_ok register
  exact ((recovers_natural 4294967295 register.toNat).checked ruled).congr
    (by simp [Nat.le_trans small])

theorem TableIndex.recovers_toJson (index : TableIndex) :
    Recovers bound TableIndex.decoder index.toJson True index := by
  have small : index.toNat ≤ 65535 := Nat.le_of_lt_succ index.value.toNat_lt
  have ruled : Yields (ofNat index.toNat) True index := by
    rw [ofNat, if_pos small, toNat, UInt16.ofNat_toNat]
    exact yields_ok index
  exact ((recovers_natural 4294967295 index.toNat).checked ruled).congr
    (by simp [Nat.le_trans small])

/-- A property whose code is one that can be asked for. -/
def Property.Regular (property : Property) : Prop :=
  0 ≤ property.toInt ∧ property.toInt ≤ greatestCode

instance : DecidablePred Property.Regular := fun _ =>
  inferInstanceAs (Decidable (_ ∧ _))

theorem Property.recovers_toJson (property : Property) :
    Recovers bound Property.decoder property.toJson property.Regular property := by
  have ruled : Yields (ofInt property.toInt) property.Regular property := by
    rw [yields_iff, Property.Regular, ofInt]
    constructor
    · intro regular
      rw [if_pos regular, toInt, Int32.ofInt_toInt]
    · intro irregular
      rw [if_neg irregular]
      exact ⟨_, rfl⟩
  have least := property.code.le_toInt
  have greatest := property.code.toInt_lt
  exact ((recovers_integer _ _ property.toInt).checked ruled).congr (by
    rw [toInt, and_iff_right]
    omega)

end Indices

namespace PushValue

variable {bound : Nat}

/-- An operand that reading does not refuse. -/
def Regular : PushValue → Prop
  | property known => known.Regular
  | _ => True

def IsDouble : PushValue → Prop
  | double _ => True
  | _ => False

instance : DecidablePred Regular
  | property known => inferInstanceAs (Decidable known.Regular)
  | text _ | integer _ | double _ | boolean _ | null | undefined | register _ | constant _
  | propertyWord _ => isTrue trivial

instance : DecidablePred IsDouble
  | double _ => isTrue trivial
  | text _ | integer _ | boolean _ | null | undefined | register _ | constant _ | property _
  | propertyWord _ => isFalse id

theorem whole_toJson {value : PushValue} (notDouble : ¬ value.IsDouble) : value.toJson.Whole := by
  cases value with
  | double value => exact absurd trivial notDouble
  | null => exact .text _
  | undefined => exact .text _
  | _ => exact whole_tagged (by simp [RegisterIndex.toJson, TableIndex.toJson, Property.toJson])

theorem recovers_toJson {value : PushValue} (notDouble : ¬ value.IsDouble) :
    Recovers bound PushValue.decoder value.toJson value.Regular value := by
  apply Recovers.mono _ (Nat.le_succ bound)
  cases value with
  | text value => exact recovers_carrying rfl ((recovers_text value).mapped text)
  | integer value => exact recovers_carrying rfl ((recovers_signed32 value).mapped integer)
  | double value => exact absurd trivial notDouble
  | boolean value => exact recovers_carrying rfl ((recovers_boolean value).mapped boolean)
  | null => exact recovers_alone rfl
  | undefined => exact recovers_alone rfl
  | register index => exact recovers_carrying rfl (index.recovers_toJson.mapped register)
  | constant index => exact recovers_carrying rfl (index.recovers_toJson.mapped constant)
  | property known => exact recovers_carrying rfl (known.recovers_toJson.mapped property)
  | propertyWord word =>
      exact recovers_carrying rfl ((recovers_word32 word).mapped propertyWord)

end PushValue

theorem SendMethod.recovers_toJson {bound : Nat} (method : SendMethod) :
    Recovers bound SendMethod.decoder method.toJson True method :=
  recovers_alone method.ofName?_name

namespace Plain

variable {bound : Nat}

/-- A header that reading does not refuse. -/
def Regular : Plain → Prop
  | push values => ∀ value ∈ values, value.Regular
  | _ => True

def NoDouble : Plain → Prop
  | push values => ∀ value ∈ values, ¬ value.IsDouble
  | _ => True

instance : DecidablePred Regular
  | push values => inferInstanceAs (Decidable (∀ value ∈ values, value.Regular))
  | gotoFrame _ | getUrl _ _ | storeRegister _ | constantPool _ | waitForFrame _ _ | setTarget _
  | gotoLabel _ | waitForFrame2 _ | jump _ | getUrl2 _ _ _ | branchIf _ | gotoFrame2 _ _ =>
    isTrue trivial

instance : DecidablePred NoDouble
  | push values => inferInstanceAs (Decidable (∀ value ∈ values, ¬ value.IsDouble))
  | gotoFrame _ | getUrl _ _ | storeRegister _ | constantPool _ | waitForFrame _ _ | setTarget _
  | gotoLabel _ | waitForFrame2 _ | jump _ | getUrl2 _ _ _ | branchIf _ | gotoFrame2 _ _ =>
    isTrue trivial

theorem whole_contentJson {fields : Plain} (noDouble : fields.NoDouble) :
    fields.contentJson.Whole := by
  cases fields with
  | constantPool strings => exact whole_texts strings
  | push values =>
      apply Value.Whole.object
      rw [List.forall_mem_singleton]
      exact whole_listOf_map fun value member => PushValue.whole_toJson (noDouble value member)
  | _ =>
      apply Value.Whole.object
      simp [RegisterIndex.toJson, SendMethod.toJson]

theorem recovers_contentJson {fields : Plain} (counted : ∀ count ∈ fields.counts, count ≤ 65535)
    (noDouble : fields.NoDouble) :
    Recovers bound (Plain.contentDecoder fields.kind) fields.contentJson fields.Regular fields := by
  apply Recovers.mono _ (Nat.le_succ bound)
  cases fields with
  | gotoFrame frame =>
      exact recovers_record (fills_required (recovers_word16 frame) fills_done) rfl
        (by simp [Regular])
  | getUrl url target =>
      exact recovers_record
        (fills_required (recovers_text url)
          (fills_required (recovers_text target) fills_done)) rfl
        (by simp [Regular])
  | storeRegister register =>
      exact recovers_record (fills_required register.recovers_toJson fills_done) rfl
        (by simp [Regular])
  | constantPool strings =>
      have ruled : Yields (constantPool strings).checked True (constantPool strings) := by
        have short : strings.length ≤ 65535 := counted _ (List.mem_singleton_self _)
        rw [checked, if_pos short]
        exact yields_ok _
      exact ((recovers_texts strings).checked ruled).congr (by simp [Regular])
  | waitForFrame frame skipCount =>
      exact recovers_record
        (fills_required (recovers_word16 frame)
          (fills_required (recovers_word8 skipCount) fills_done)) rfl
        (by simp [Regular])
  | setTarget target =>
      exact recovers_record (fills_required (recovers_text target) fills_done) rfl
        (by simp [Regular])
  | gotoLabel label =>
      exact recovers_record (fills_required (recovers_text label) fills_done) rfl
        (by simp [Regular])
  | waitForFrame2 skipCount =>
      exact recovers_record (fills_required (recovers_word8 skipCount) fills_done) rfl
        (by simp [Regular])
  | push values =>
      have operands : Recovers bound (Decoder.listOf PushValue.decoder)
          (.listOf (values.map PushValue.toJson)) (∀ value ∈ values, value.Regular) values :=
        (recovers_listOf fun value member => PushValue.recovers_toJson (noDouble value member)).mono
          (Nat.le_succ bound)
      exact recovers_record (fills_required operands fills_done) rfl
        (by simp [Regular])
  | jump offset =>
      exact recovers_record (fills_required (recovers_signed16 offset) fills_done) rfl
        (by simp [Regular])
  | getUrl2 method loadTarget loadVariables =>
      exact recovers_record
        (fills_required method.recovers_toJson
          (fills_required (recovers_boolean loadTarget)
            (fills_required (recovers_boolean loadVariables) fills_done))) rfl
        (by simp [Regular])
  | branchIf offset =>
      exact recovers_record (fills_required (recovers_signed16 offset) fills_done) rfl
        (by simp [Regular])
  | gotoFrame2 play sceneBias =>
      exact recovers_record
        (fills_required (recovers_boolean play)
          (fills_required (recovers_word16 sceneBias) fills_done)) rfl
        (by simp [Regular])

end Plain

end ActionStream
