import ActionStream.Proofs.Action.PlainHeader
import ActionStream.Proofs.Operand.Written

/-!
# The written form of a header without regions

The bytes that are written for the fields of a header, and how they compare with the bytes that the
fields were read from.  They differ where a push has a lossy operand, where a jump to a frame
announces a bias of zero and where a flag byte has reserved bits.
-/

namespace ActionStream

namespace Plain

/-- The bytes that are written for the fields of a header. -/
def bytes (context : Context) : Plain → List UInt8
  | gotoFrame frame => Wire.bytesOf16 frame
  | getUrl url target => context.textBytes url ++ context.textBytes target
  | storeRegister register => [register.value]
  | constantPool strings =>
    Wire.bytesOf16 (UInt16.ofNat strings.length) ++ strings.flatMap context.textBytes
  | waitForFrame frame skipCount => Wire.bytesOf16 frame ++ [skipCount]
  | setTarget target => context.textBytes target
  | gotoLabel label => context.textBytes label
  | waitForFrame2 skipCount => [skipCount]
  | push values => values.flatMap (PushValue.bytes context)
  | jump offset => Wire.bytesOf16 offset.toUInt16
  | getUrl2 method loadTarget loadVariables => [requestFlags method loadTarget loadVariables]
  | branchIf offset => Wire.bytesOf16 offset.toUInt16
  | gotoFrame2 play sceneBias =>
    frameFlags play sceneBias :: if sceneBias = 0 then [] else Wire.bytesOf16 sceneBias

/-- Fields that can be written: so can every text among them. -/
def Writable (context : Context) : Plain → Prop
  | getUrl url target => context.Writable url ∧ context.Writable target
  | constantPool strings => ∀ text ∈ strings, context.Writable text
  | setTarget target => context.Writable target
  | gotoLabel label => context.Writable label
  | push values => ∀ value ∈ values, value.Writable context
  | _ => True

/-- Every property operand among the fields is what its written word is read as. -/
def ReadsBack (context : Context) : Plain → Prop
  | push values => ∀ value ∈ values, value.ReadsBack context
  | _ => True

instance (context : Context) : DecidablePred (ReadsBack context)
  | push values => inferInstanceAs (Decidable (∀ value ∈ values, value.ReadsBack context))
  | gotoFrame _ | getUrl _ _ | storeRegister _ | constantPool _ | waitForFrame _ _ | setTarget _
  | gotoLabel _ | waitForFrame2 _ | jump _ | getUrl2 _ _ _ | branchIf _ | gotoFrame2 _ _ =>
    isTrue trivial

theorem length_bytes (context : Context) (fields : Plain) :
    (fields.bytes context).length = fields.headerSize context := by
  cases fields with
  | getUrl url target => simp [bytes, headerSize]
  | constantPool strings =>
      rw [bytes, headerSize, List.length_append, context.length_flatMap_textBytes]
      rfl
  | setTarget target => simp [bytes, headerSize]
  | gotoLabel label => simp [bytes, headerSize]
  | push values => exact length_flatMap_eq_sumOver fun value _ => value.length_bytes context
  | gotoFrame2 play sceneBias =>
      simp only [bytes, headerSize, List.length_cons]
      split <;> rfl
  | _ => rfl

theorem emits_write (context : Context) (fields : Plain) :
    Writer.Emits (fields.write context) (fields.Writable context) (fields.bytes context) () := by
  cases fields with
  | getUrl url target =>
      exact (Writer.emits_text context url).andThen (Writer.emits_text context target)
  | constantPool strings =>
      have composed := (Writer.emits_block (Wire.bytesOf16 (UInt16.ofNat strings.length))).andThen
        (Writer.emits_each (Writer.emits_text context) strings)
      exact composed.congr (by simp [Writable])
  | waitForFrame frame skipCount =>
      have composed := (Writer.emits_block (Wire.bytesOf16 frame)).andThen
        (Writer.emits_block [skipCount])
      exact composed.congr (by simp [Writable])
  | setTarget target => exact Writer.emits_text context target
  | gotoLabel label => exact Writer.emits_text context label
  | push values => exact Writer.emits_each (PushValue.emits_write context) values
  | gotoFrame2 play sceneBias =>
      have bias : Writer.Emits (if sceneBias = 0 then pure () else Writer.word16 sceneBias) True
          (if sceneBias = 0 then [] else Wire.bytesOf16 sceneBias) () := by
        split
        next => exact Writer.emits_pure ()
        next => exact Writer.emits_block (Wire.bytesOf16 sceneBias)
      have composed := (Writer.emits_block [frameFlags play sceneBias]).andThen bias
      exact composed.congr (by simp [Writable])
  | _ => exact Writer.emits_block _

end Plain

/-- Headers whose fields are not written the way they were read. -/
inductive LossyPlain (context : Context) : Form Plain
  | operand {bytes front : List UInt8} {values : List PushValue} {value : PushValue}
      (stands : Sequence.Stands (OperandForm context) front value bytes values)
      (lossy : LossyOperand front) : LossyPlain context bytes (.push values)
  | request {flags : UInt8} {method : SendMethod} {loadTarget loadVariables : Bool}
      (reserved : flags &&& 0x3C ≠ 0) :
      LossyPlain context [flags] (.getUrl2 method loadTarget loadVariables)
  | frame {flags : UInt8} {rest : List UInt8} {play : Bool} {sceneBias : UInt16}
      (reserved : flags &&& 0xFC ≠ 0) :
      LossyPlain context (flags :: rest) (.gotoFrame2 play sceneBias)
  | zeroBias {flags : UInt8} {rest : List UInt8} {play : Bool} (biased : flags &&& 0x02 ≠ 0) :
      LossyPlain context (flags :: rest) (.gotoFrame2 play 0)

/-- Only three kinds of header can be lossy. -/
theorem LossyPlain.kind_mem {context : Context} {front : List UInt8} {fields : Plain}
    (lossy : LossyPlain context front fields) :
    fields.kind ∈ [PlainKind.push, .getUrl2, .gotoFrame2] := by
  cases lossy <;> simp [Plain.kind]

namespace Plain

/-- A flag byte of a request holds the method, the two switches and nothing else. -/
theorem requestFlags_bits (method : SendMethod) (loadTarget loadVariables : Bool) :
    requestFlags method loadTarget loadVariables &&& 0x03 = method.bits ∧
      requestFlags method loadTarget loadVariables &&& 0x3C = 0 ∧
      (requestFlags method loadTarget loadVariables &&& 0x40 != 0) = loadTarget ∧
      (requestFlags method loadTarget loadVariables &&& 0x80 != 0) = loadVariables := by
  cases method <;> cases loadTarget <;> cases loadVariables <;> decide

theorem requestFlags_eq_iff {flags : UInt8} {method : SendMethod}
    (meaning : flags &&& 0x03 = method.bits) :
    requestFlags method (flags &&& 0x40 != 0) (flags &&& 0x80 != 0) = flags ↔
      flags &&& 0x3C = 0 := by
  revert flags
  apply Wire.forall_byte
  cases method <;> decide +kernel

/-- A flag byte of a jump holds the switch and the announcement of a bias, and nothing else. -/
theorem frameFlags_bits (play : Bool) (sceneBias : UInt16) :
    frameFlags play sceneBias &&& 0xFC = 0 ∧ (frameFlags play sceneBias &&& 0x01 != 0) = play ∧
      (frameFlags play sceneBias &&& 0x02 = 0 ↔ sceneBias = 0) := by
  unfold frameFlags
  by_cases unbiased : sceneBias = 0 <;> cases play <;> simp only [unbiased, if_true, if_false] <;>
    decide

theorem frameFlags_eq_iff (flags : UInt8) (sceneBias : UInt16) :
    frameFlags (flags &&& 0x01 != 0) sceneBias = flags ↔
      flags &&& 0xFC = 0 ∧ (flags &&& 0x02 = 0 ↔ sceneBias = 0) := by
  unfold frameFlags
  revert flags
  apply Wire.forall_byte
  by_cases unbiased : sceneBias = 0 <;> simp only [unbiased, if_true, if_false] <;>
    decide +kernel

end Plain

namespace PlainHeader

variable {context : Context} {front : List UInt8} {fields : Plain}

theorem writable (header : PlainHeader context front fields) : fields.Writable context := by
  cases header with
  | getUrl urlForm targetForm => exact ⟨urlForm.1, targetForm.1⟩
  | constantPool count counted forms => exact forms.forall_mem fun _ _ form => form.1
  | setTarget form => exact form.1
  | gotoLabel form => exact form.1
  | push forms => exact forms.forall_mem fun _ _ form => form.writable
  | _ => trivial

theorem readsBack (header : PlainHeader context front fields) : fields.ReadsBack context := by
  cases header with
  | push forms => exact forms.forall_mem fun _ _ form => form.readsBack
  | _ => trivial

/-- What is written for fields is a header of them, if its length can be declared. -/
theorem bytes_form (writable : fields.Writable context) (readsBack : fields.ReadsBack context)
    (short : fields.headerSize context ≤ 65535) :
    PlainHeader context (fields.bytes context) fields := by
  cases fields with
  | gotoFrame frame => exact .gotoFrame frame
  | getUrl url target => exact .getUrl ⟨writable.1, rfl⟩ ⟨writable.2, rfl⟩
  | storeRegister register => exact .storeRegister register.value
  | constantPool strings =>
      -- Every text takes a byte, so the number of texts fits its field.
      have counted := length_le_sumOver fun text (_ : text ∈ strings) => context.textSize_pos text
      rw [Plain.headerSize] at short
      refine .constantPool _ ?_
        (Sequence.of_forall_mem fun text member => ⟨writable text member, rfl⟩)
      have small : strings.length < 65536 := by omega
      rw [UInt16.toNat_ofNat_of_lt' small]
  | waitForFrame frame skipCount => exact .waitForFrame frame skipCount
  | setTarget target => exact .setTarget ⟨writable, rfl⟩
  | gotoLabel label => exact .gotoLabel ⟨writable, rfl⟩
  | waitForFrame2 skipCount => exact .waitForFrame2 skipCount
  | push values =>
      exact .push (Sequence.of_forall_mem fun value member =>
        OperandForm.bytes_form (writable value member) (readsBack value member))
  | jump offset => exact .jump offset
  | getUrl2 method loadTarget loadVariables =>
      obtain ⟨meaning, unreserved, target, sent⟩ :=
        Plain.requestFlags_bits method loadTarget loadVariables
      have header : PlainHeader context _ _ := .getUrl2 _ (.inl unreserved) meaning
      rwa [target, sent] at header
  | branchIf offset => exact .branchIf offset
  | gotoFrame2 play sceneBias =>
      obtain ⟨unreserved, plays, announced⟩ := Plain.frameFlags_bits play sceneBias
      rw [Plain.bytes]
      split
      next unbiased =>
        have header : PlainHeader context _ _ :=
          .gotoFrame2 _ (.inl unreserved) (announced.mpr unbiased)
        rwa [plays, ← unbiased] at header
      next biased =>
        have header : PlainHeader context _ _ :=
          .biasedGotoFrame2 _ sceneBias (.inl unreserved) fun clear => biased (announced.mp clear)
        rwa [plays] at header

/-- What is written for fields is not longer than what they were read from. -/
theorem length_bytes_le (header : PlainHeader context front fields) :
    (fields.bytes context).length ≤ front.length := by
  cases header with
  | getUrl urlForm targetForm => simp [urlForm.2, targetForm.2, Plain.bytes]
  | constantPool count counted forms =>
      have bound := forms.length_flatMap_le fun _ _ form =>
        Nat.le_of_eq (congrArg List.length form.2.symm)
      simpa [Plain.bytes] using bound
  | setTarget form => simp [form.2, Plain.bytes]
  | gotoLabel form => simp [form.2, Plain.bytes]
  | push forms => exact forms.length_flatMap_le fun _ _ form => form.length_bytes_le
  | biasedGotoFrame2 flags sceneBias allowed biased =>
      simp only [Plain.bytes]
      split <;> simp
  | _ => exact Nat.le_refl _

theorem bytes_eq_iff_of_kind (other : fields.kind ∉ [PlainKind.push, .getUrl2, .gotoFrame2])
    (same : fields.bytes context = front) :
    fields.bytes context = front ↔ ¬ LossyPlain context front fields :=
  iff_of_true same fun lossy => other lossy.kind_mem

/-- Fields are written the way they were read unless the header is lossy. -/
theorem bytes_eq_iff (header : PlainHeader context front fields) :
    fields.bytes context = front ↔ ¬ LossyPlain context front fields := by
  cases header with
  | getUrl urlForm targetForm =>
      refine bytes_eq_iff_of_kind (by simp [Plain.kind]) ?_
      rw [urlForm.2, targetForm.2, Plain.bytes]
  | constantPool count counted forms =>
      refine bytes_eq_iff_of_kind (by simp [Plain.kind]) ?_
      have same := forms.flatMap_eq fun _ _ stands => stands.form_of.2.symm
      rw [Plain.bytes, counted, UInt16.ofNat_toNat, same]
  | setTarget form =>
      refine bytes_eq_iff_of_kind (by simp [Plain.kind]) ?_
      exact form.2.symm
  | gotoLabel form =>
      refine bytes_eq_iff_of_kind (by simp [Plain.kind]) ?_
      exact form.2.symm
  | push forms =>
      constructor
      · intro same lossy
        cases lossy with
        | operand stands lossy =>
            have kept := stands.write_eq (fun _ _ form => form.length_bytes_le) same
            exact stands.form_of.bytes_eq_iff.mp kept lossy
      · intro kept
        exact forms.flatMap_eq fun _ _ stands =>
          stands.form_of.bytes_eq_iff.mpr fun lossy => kept (.operand stands lossy)
  | getUrl2 flags allowed meaning =>
      rw [Plain.bytes, List.cons.injEq, Plain.requestFlags_eq_iff meaning]
      constructor
      · rintro ⟨unreserved, -⟩ lossy
        cases lossy with
        | request reserved => exact reserved unreserved
      · exact fun kept => ⟨not_not.mp fun reserved => kept (.request reserved), rfl⟩
  | gotoFrame2 flags allowed unbiased =>
      simp only [Plain.bytes, List.cons.injEq, Plain.frameFlags_eq_iff, unbiased, if_true, and_true]
      constructor
      · intro unreserved lossy
        cases lossy with
        | frame reserved => exact reserved unreserved
        | zeroBias biased => exact biased unbiased
      · exact fun kept => not_not.mp fun reserved => kept (.frame reserved)
  | biasedGotoFrame2 flags sceneBias allowed biased =>
      by_cases zero : sceneBias = 0
      · subst zero
        exact iff_of_false (by simp [Plain.bytes, Wire.bytesOf16]) fun kept =>
          kept (.zeroBias biased)
      · simp only [Plain.bytes, List.cons.injEq, Plain.frameFlags_eq_iff, biased, zero, if_false,
          and_true]
        constructor
        · intro unreserved lossy
          cases lossy with
          | frame reserved => exact reserved unreserved
          | zeroBias => exact zero rfl
        · exact fun kept => not_not.mp fun reserved => kept (.frame reserved)
  | _ => exact bytes_eq_iff_of_kind (by simp [Plain.kind]) rfl

end PlainHeader

end ActionStream
