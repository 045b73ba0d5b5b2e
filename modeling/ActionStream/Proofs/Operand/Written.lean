import ActionStream.Proofs.Operand.Form
import ActionStream.Proofs.Wire.Word

/-!
# The written form of a push operand

Every operand has one written form.  It is a form of the operand only if a property operand stands
for the word that is written for it.  Of the forms an operand can be read from, the written one is
never longer than the others, and only two tags have others.
-/

namespace ActionStream

namespace PushValue

/-- The bytes that are written behind the tag. -/
def valueBytes (context : Context) : PushValue → List UInt8
  | text value => context.textBytes value
  | integer value => Wire.bytesOf32 value.toUInt32
  | double value => Wire.bytesOf32 value.high ++ Wire.bytesOf32 value.low
  | boolean value => [if value then 1 else 0]
  | null | undefined => []
  | register index => [index.value]
  | constant index => if index.isWide then Wire.bytesOf16 index.value else [index.value.toUInt8]
  | property known => Wire.bytesOf32 (known.wireWord context.propertiesAsFloat)
  | propertyWord word => Wire.bytesOf32 word

/-- The written form of an operand. -/
def bytes (context : Context) (value : PushValue) : List UInt8 :=
  value.tag :: value.valueBytes context

/-- An operand that can be written; only texts can fail to be. -/
def Writable (context : Context) : PushValue → Prop
  | text value => context.Writable value
  | _ => True

/-- A property operand is what its written word is read as. -/
def ReadsBack (context : Context) : PushValue → Prop
  | property known =>
    Property.ofWireWord? (known.wireWord context.propertiesAsFloat) context.propertiesAsFloat =
      some known
  | propertyWord word => Property.ofWireWord? word context.propertiesAsFloat = none
  | _ => True

instance (context : Context) : DecidablePred (ReadsBack context)
  | property known =>
    inferInstanceAs (Decidable (Property.ofWireWord? (known.wireWord context.propertiesAsFloat)
      context.propertiesAsFloat = some known))
  | propertyWord word =>
    inferInstanceAs (Decidable (Property.ofWireWord? word context.propertiesAsFloat = none))
  | text _ | integer _ | double _ | boolean _ | null | undefined | register _ | constant _ =>
    isTrue trivial

theorem length_bytes (context : Context) (value : PushValue) :
    (value.bytes context).length = value.size context := by
  cases value with
  | text value => simp [bytes, valueBytes, size, Nat.add_comm]
  | constant index =>
      simp only [bytes, valueBytes, size]
      cases index.isWide <;> rfl
  | _ => rfl

theorem emits_writeValue (context : Context) (value : PushValue) :
    Writer.Emits (value.writeValue context) (value.Writable context) (value.valueBytes context)
      () := by
  cases value with
  | text value => exact Writer.emits_text context value
  | double value =>
      have composed := (Writer.emits_block (Wire.bytesOf32 value.high)).andThen
        (Writer.emits_block (Wire.bytesOf32 value.low))
      exact composed.congr (by simp [Writable])
  | null | undefined => exact Writer.emits_pure ()
  | constant index =>
      simp only [writeValue, valueBytes]
      cases index.isWide with
      | false => exact Writer.emits_block [index.value.toUInt8]
      | true => exact Writer.emits_block (Wire.bytesOf16 index.value)
  | _ => exact Writer.emits_block _

theorem emits_write (context : Context) (value : PushValue) :
    Writer.Emits (value.write context) (value.Writable context) (value.bytes context) () := by
  have composed := (Writer.emits_block [value.tag]).andThen
    (emits_writeValue context value)
  exact composed.congr (by simp)

end PushValue

/-- Forms that are read but never written. -/
inductive LossyOperand : List UInt8 → Prop
  | boolean {byte : UInt8} (notFalse : byte ≠ 0) (notTrue : byte ≠ 1) : LossyOperand [5, byte]
  | wideConstant {number : UInt16} (small : number ≤ 255) :
      LossyOperand (9 :: Wire.bytesOf16 number)

theorem LossyOperand.cons_iff {tag : UInt8} {front : List UInt8} :
    LossyOperand (tag :: front) ↔
      (tag = 5 ∧ ∃ byte, front = [byte] ∧ byte ≠ 0 ∧ byte ≠ 1) ∨
      (tag = 9 ∧ ∃ number, front = Wire.bytesOf16 number ∧ number ≤ 255) := by
  constructor
  · intro lossy
    generalize bytesEq : tag :: front = bytes at lossy
    cases lossy with
    | @boolean byte notFalse notTrue =>
        obtain ⟨rfl, rfl⟩ := List.cons.inj bytesEq
        exact .inl ⟨rfl, byte, rfl, notFalse, notTrue⟩
    | @wideConstant number small =>
        obtain ⟨rfl, rfl⟩ := List.cons.inj bytesEq
        exact .inr ⟨rfl, number, rfl, small⟩
  · rintro (⟨rfl, byte, rfl, notFalse, notTrue⟩ | ⟨rfl, number, rfl, small⟩)
    · exact .boolean notFalse notTrue
    · exact .wideConstant small

theorem Property.wireWord_of_ofWireWord? {word : UInt32} {asFloat : Bool} {known : Property}
    (named : ofWireWord? word asFloat = some known) : known.wireWord asFloat = word := by
  unfold ofWireWord? at named
  dsimp only at named
  by_cases same : (⟨if asFloat then Binary32.toInt word else word.toInt32⟩ : Property).wireWord
      asFloat = word
  · rw [if_pos same] at named
    injection named with knownEq
    rwa [← knownEq]
  · rw [if_neg same] at named
    cases named

namespace PushValue

variable (context : Context)

theorem bytes_ofPropertyWord (word : UInt32) :
    (ofPropertyWord context word).bytes context = 1 :: Wire.bytesOf32 word := by
  unfold ofPropertyWord
  cases named : Property.ofWireWord? word context.propertiesAsFloat with
  | none => rfl
  | some known =>
      simp only [bytes, tag, valueBytes, Property.wireWord_of_ofWireWord? named]

theorem readsBack_ofPropertyWord (word : UInt32) :
    (ofPropertyWord context word).ReadsBack context := by
  unfold ofPropertyWord
  cases named : Property.ofWireWord? word context.propertiesAsFloat with
  | none => exact named
  | some known => rwa [ReadsBack, Property.wireWord_of_ofWireWord? named]

theorem writable_ofPropertyWord (word : UInt32) :
    (ofPropertyWord context word).Writable context := by
  unfold ofPropertyWord
  cases Property.ofWireWord? word context.propertiesAsFloat <;> trivial

end PushValue

namespace OperandForm

variable {context : Context} {front : List UInt8} {value : PushValue}

theorem writable (form : OperandForm context front value) : value.Writable context := by
  cases form with
  | text form => exact form.1
  | _ => trivial

theorem readsBack (form : OperandForm context front value) : value.ReadsBack context := by
  cases form with
  | integerProperty code late =>
      have back := PushValue.readsBack_ofPropertyWord context code.toUInt32
      rwa [PushValue.ofPropertyWord_of_late late, Int32.toInt32_toUInt32] at back
  | floatProperty code early =>
      have back := PushValue.readsBack_ofPropertyWord context (Binary32.ofInt code)
      rwa [PushValue.ofPropertyWord_ofInt early] at back
  | @propertyWord word early ofNoCode =>
      have back := PushValue.readsBack_ofPropertyWord context word
      rwa [PushValue.ofPropertyWord_of_forall_ne early ofNoCode] at back
  | _ => trivial

theorem bytes_form (writable : value.Writable context) (readsBack : value.ReadsBack context) :
    OperandForm context (value.bytes context) value := by
  cases value with
  | text text => exact .text ⟨writable, rfl⟩
  | integer number => exact .integer number
  | double number => exact .double number
  | boolean truth =>
      cases truth with
      | false => exact .boolean 0
      | true => exact .boolean 1
  | null => exact .null
  | undefined => exact .undefined
  | register index => exact .register index.value
  | constant index =>
      simp only [PushValue.bytes, PushValue.tag, PushValue.valueBytes]
      cases wide : index.isWide with
      | true => exact .wideConstant index.value
      | false =>
          have small : ¬ 255 < index.value := by
            rw [← TableIndex.isWide_iff, wide]
            exact Bool.false_ne_true
          have same : index.value.toUInt8.toUInt16 = index.value := by
            apply UInt16.toNat_inj.mp
            rw [UInt16.lt_iff_toNat_lt] at small
            simp only [UInt16.reduceToNat] at small
            simp only [UInt8.toNat_toUInt16, UInt16.toNat_toUInt8]
            omega
          have form : OperandForm context _ _ := .narrowConstant index.value.toUInt8
          rwa [same] at form
  | property known =>
      have form := of_propertyWord context (known.wireWord context.propertiesAsFloat)
      rwa [PushValue.ofPropertyWord, readsBack] at form
  | propertyWord word =>
      have form := of_propertyWord context word
      rwa [PushValue.ofPropertyWord, readsBack] at form

/-- The written form of an operand is the form it was read from, unless that form is lossy. -/
theorem bytes_eq_iff (form : OperandForm context front value) :
    value.bytes context = front ↔ ¬ LossyOperand front := by
  cases form with
  | text form => simp [LossyOperand.cons_iff, PushValue.bytes, PushValue.tag, PushValue.valueBytes,
      form.2]
  | integerProperty code late =>
      have same := PushValue.bytes_ofPropertyWord context code.toUInt32
      rw [PushValue.ofPropertyWord_of_late late, Int32.toInt32_toUInt32] at same
      simp [LossyOperand.cons_iff, same]
  | floatProperty code early =>
      have same := PushValue.bytes_ofPropertyWord context (Binary32.ofInt code)
      rw [PushValue.ofPropertyWord_ofInt early] at same
      simp [LossyOperand.cons_iff, same]
  | boolean byte =>
      simp only [LossyOperand.cons_iff, PushValue.bytes, PushValue.tag, PushValue.valueBytes]
      by_cases isFalse : byte = 0
      · simp [isFalse]
      · have isTrue : (byte != 0) = true := by simpa using isFalse
        simp [isTrue, isFalse, @eq_comm _ byte]
  | narrowConstant number =>
      simp [LossyOperand.cons_iff, PushValue.bytes, PushValue.tag, PushValue.valueBytes,
        TableIndex.isWide_toUInt16]
  | wideConstant number =>
      have lossyIff : LossyOperand (9 :: Wire.bytesOf16 number) ↔ number ≤ 255 := by
        rw [LossyOperand.cons_iff]
        constructor
        · rintro (⟨different, -⟩ | ⟨-, other, same, small⟩)
          · cases different
          · rwa [Wire.bytesOf16_injective same]
        · exact fun small => .inr ⟨rfl, number, rfl, small⟩
      rw [lossyIff, UInt16.not_le, ← TableIndex.isWide_iff ⟨number⟩]
      simp only [PushValue.bytes, PushValue.tag, PushValue.valueBytes]
      cases (⟨number⟩ : TableIndex).isWide <;> simp
  | _ => simp [LossyOperand.cons_iff, PushValue.bytes, PushValue.tag, PushValue.valueBytes]

/-- The written form is not longer than any other. -/
theorem length_bytes_le (form : OperandForm context front value) :
    (value.bytes context).length ≤ front.length := by
  rw [PushValue.length_bytes]
  cases form with
  | text form => simp [PushValue.size, form.2, Nat.add_comm]
  | narrowConstant number => simp [PushValue.size, TableIndex.isWide_toUInt16]
  | wideConstant number =>
      simp only [PushValue.size]
      cases (⟨number⟩ : TableIndex).isWide <;> simp [Wire.bytesOf16]
  | _ => simp [PushValue.size, Wire.bytesOf32]

end OperandForm

end ActionStream
