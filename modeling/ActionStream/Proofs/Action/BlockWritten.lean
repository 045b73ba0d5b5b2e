import ActionStream.Proofs.Action.BlockHeader
import ActionStream.Proofs.Action.PlainWritten

/-!
# The written form of a header with regions

The bytes that are written for the fields of a header with regions of given sizes, and how they
compare with the bytes that the fields were read from.  Only the flag byte of an exception handler
can change: its reserved bits are cleared and its presence bits are set as the sizes say.
-/

namespace ActionStream

/-- The written form of a parameter. -/
def RegisterParam.bytes (context : Context) (param : RegisterParam) : List UInt8 :=
  param.registerByte :: context.textBytes param.name

/-- The written form of a catch target. -/
def CatchTarget.bytes (context : Context) : CatchTarget → List UInt8
  | name text => context.textBytes text
  | register index => [index.value]

/-- A catch target that can be written. -/
def CatchTarget.Writable (context : Context) : CatchTarget → Prop
  | name text => context.Writable text
  | register _ => True

namespace Block

variable {Region : Type}

/-- The bytes that are written for the fields of a header. -/
def bytes (context : Context) : Block UInt16 → List UInt8
  | defineFunction name params bodySize =>
    context.textBytes name ++ (Wire.bytesOf16 (UInt16.ofNat params.length) ++
      (params.flatMap context.textBytes ++ Wire.bytesOf16 bodySize))
  | defineFunction2 name registerCount flags params bodySize =>
    context.textBytes name ++ (Wire.bytesOf16 (UInt16.ofNat params.length) ++
      ([registerCount] ++ (Wire.bytesOf16 flags.bits ++
        (params.flatMap (RegisterParam.bytes context) ++ Wire.bytesOf16 bodySize))))
  | tryCatch trySize target catchSize finallySize =>
    [handlerFlags target catchSize finallySize] ++ (Wire.bytesOf16 trySize ++
      (Wire.bytesOf16 catchSize ++ (Wire.bytesOf16 finallySize ++ target.bytes context)))
  | withObject bodySize => Wire.bytesOf16 bodySize

/-- Fields that can be written: so can every text among them. -/
def Writable (context : Context) : Block Region → Prop
  | defineFunction name params _ =>
    context.Writable name ∧ ∀ param ∈ params, context.Writable param
  | defineFunction2 name _ _ params _ =>
    context.Writable name ∧ ∀ param ∈ params, context.Writable param.name
  | tryCatch _ target _ _ => target.Writable context
  | withObject _ => True

/-- A register zero stands for no register, so a parameter cannot be bound to it. -/
def Registered : Block Region → Prop
  | defineFunction2 _ _ _ params _ => ∀ param ∈ params, param.register ≠ some ⟨0⟩
  | _ => True

/-- The flags of a function with registers have no reserved bits. -/
def Unreserved : Block Region → Prop
  | defineFunction2 _ _ flags _ _ => flags.reserved = 0
  | _ => True

instance : DecidablePred (@Registered Region)
  | defineFunction2 _ _ _ params _ =>
    inferInstanceAs (Decidable (∀ param ∈ params, param.register ≠ some ⟨0⟩))
  | defineFunction _ _ _ | tryCatch _ _ _ _ | withObject _ => isTrue trivial

instance : DecidablePred (@Unreserved Region)
  | defineFunction2 _ _ flags _ _ => inferInstanceAs (Decidable (flags.reserved = 0))
  | defineFunction _ _ _ | tryCatch _ _ _ _ | withObject _ => isTrue trivial

end Block

theorem RegisterParam.emits_write (context : Context) (param : RegisterParam) :
    Writer.Emits (param.write context) (context.Writable param.name) (param.bytes context) () := by
  have composed := (Writer.emits_block [param.registerByte]).andThen
    (Writer.emits_text context param.name)
  exact composed.congr (by simp)

theorem CatchTarget.emits_write (context : Context) (target : CatchTarget) :
    Writer.Emits (target.write context) (target.Writable context) (target.bytes context) () := by
  cases target with
  | name text => exact Writer.emits_text context text
  | register index => exact Writer.emits_block [index.value]

theorem RegisterParam.length_bytes (context : Context) (param : RegisterParam) :
    (param.bytes context).length = param.size context := by
  simp [bytes, size, Nat.add_comm]

theorem RegisterParam.size_pos (context : Context) (param : RegisterParam) :
    1 ≤ param.size context :=
  Nat.le_add_right 1 _

theorem RegisterParam.length_flatMap_bytes (context : Context) (params : List RegisterParam) :
    (params.flatMap (bytes context)).length = sumOver (size context) params :=
  length_flatMap_eq_sumOver fun param _ => param.length_bytes context

theorem CatchTarget.length_bytes (context : Context) (target : CatchTarget) :
    (target.bytes context).length = target.size context := by
  cases target <;> simp [bytes, size]

namespace Block

theorem length_bytes (context : Context) (sized : Block UInt16) :
    (sized.bytes context).length = sized.headerSize context := by
  cases sized with
  | defineFunction name params bodySize =>
      simp only [bytes, headerSize, List.length_append, Context.length_textBytes,
        Wire.length_bytesOf16, Context.length_flatMap_textBytes]
      omega
  | defineFunction2 name registerCount flags params bodySize =>
      simp only [bytes, headerSize, List.length_append, Context.length_textBytes,
        Wire.length_bytesOf16, RegisterParam.length_flatMap_bytes, List.length_singleton]
      omega
  | tryCatch trySize target catchSize finallySize =>
      simp only [bytes, headerSize, List.length_append, Wire.length_bytesOf16,
        CatchTarget.length_bytes, List.length_singleton]
      omega
  | withObject bodySize => rfl

theorem emits_write (context : Context) (sized : Block UInt16) :
    Writer.Emits (sized.write context) (sized.Writable context) (sized.bytes context) () := by
  cases sized with
  | defineFunction name params bodySize =>
      have composed := (Writer.emits_text context name).andThen
        ((Writer.emits_block (Wire.bytesOf16 (UInt16.ofNat params.length))).andThen
          ((Writer.emits_each (Writer.emits_text context) params).andThen
            (Writer.emits_block (Wire.bytesOf16 bodySize))))
      exact composed.congr (by simp [Writable])
  | defineFunction2 name registerCount flags params bodySize =>
      have composed := (Writer.emits_text context name).andThen
        ((Writer.emits_block (Wire.bytesOf16 (UInt16.ofNat params.length))).andThen
          ((Writer.emits_block [registerCount]).andThen
            ((Writer.emits_block (Wire.bytesOf16 flags.bits)).andThen
              ((Writer.emits_each (RegisterParam.emits_write context) params).andThen
                (Writer.emits_block (Wire.bytesOf16 bodySize))))))
      exact composed.congr (by simp [Writable])
  | tryCatch trySize target catchSize finallySize =>
      have composed :=
        (Writer.emits_block [handlerFlags target catchSize finallySize]).andThen
          ((Writer.emits_block (Wire.bytesOf16 trySize)).andThen
            ((Writer.emits_block (Wire.bytesOf16 catchSize)).andThen
              ((Writer.emits_block (Wire.bytesOf16 finallySize)).andThen
                (CatchTarget.emits_write context target))))
      exact composed.congr (by simp [Writable])
  | withObject bodySize => exact Writer.emits_block (Wire.bytesOf16 bodySize)

end Block

/-- Headers whose fields are not written the way they were read. -/
inductive LossyBlock : Form (Block UInt16)
  | reserved {flags : UInt8} {rest : List UInt8} {trySize catchSize finallySize : UInt16}
      {target : CatchTarget} (reserved : flags &&& 0xF8 ≠ 0) :
      LossyBlock (flags :: rest) (.tryCatch trySize target catchSize finallySize)
  | catchPresence {flags : UInt8} {rest : List UInt8} {trySize catchSize finallySize : UInt16}
      {target : CatchTarget} (differs : ¬ (flags &&& 0x01 ≠ 0 ↔ catchSize ≠ 0)) :
      LossyBlock (flags :: rest) (.tryCatch trySize target catchSize finallySize)
  | finallyPresence {flags : UInt8} {rest : List UInt8} {trySize catchSize finallySize : UInt16}
      {target : CatchTarget} (differs : ¬ (flags &&& 0x02 ≠ 0 ↔ finallySize ≠ 0)) :
      LossyBlock (flags :: rest) (.tryCatch trySize target catchSize finallySize)

/-- Only the header of an exception handler can be lossy. -/
theorem LossyBlock.kind_eq {front : List UInt8} {sized : Block UInt16}
    (lossy : LossyBlock front sized) : sized.kind = .tryCatch := by
  cases lossy <;> rfl

namespace Block

/-- A flag byte of a handler holds what its three bits say, and nothing else. -/
theorem handlerFlags_bits (target : CatchTarget) (catchSize finallySize : UInt16) :
    handlerFlags target catchSize finallySize &&& 0xF8 = 0 ∧
      (handlerFlags target catchSize finallySize &&& 0x04 != 0) = target.isRegister := by
  unfold handlerFlags
  by_cases noCatch : catchSize = 0 <;> by_cases noFinally : finallySize = 0 <;>
    cases target.isRegister <;> simp only [noCatch, noFinally, if_true, if_false] <;> decide

theorem handlerFlags_eq_iff {flags : UInt8} {target : CatchTarget}
    (announced : (flags &&& 0x04 != 0) = target.isRegister) (catchSize finallySize : UInt16) :
    handlerFlags target catchSize finallySize = flags ↔
      flags &&& 0xF8 = 0 ∧ (flags &&& 0x01 ≠ 0 ↔ catchSize ≠ 0) ∧
        (flags &&& 0x02 ≠ 0 ↔ finallySize ≠ 0) := by
  unfold handlerFlags
  rw [← announced]
  clear announced
  revert flags
  apply Wire.forall_byte
  by_cases noCatch : catchSize = 0 <;> by_cases noFinally : finallySize = 0 <;>
    simp only [noCatch, noFinally, if_true, if_false, ne_eq] <;> decide +kernel

end Block

namespace TargetForm

variable {context : Context} {inRegister : Bool} {front : List UInt8} {target : CatchTarget}

theorem isRegister_eq (form : TargetForm context inRegister front target) :
    target.isRegister = inRegister := by
  cases form <;> rfl

theorem writable (form : TargetForm context inRegister front target) : target.Writable context := by
  cases form with
  | name form => exact form.1
  | register number => trivial

theorem bytes_eq (form : TargetForm context inRegister front target) :
    target.bytes context = front := by
  cases form with
  | name form => exact form.2.symm
  | register number => rfl

theorem bytes_form (writable : target.Writable context) :
    TargetForm context target.isRegister (target.bytes context) target := by
  cases target with
  | name text => exact .name ⟨writable, rfl⟩
  | register index => exact .register index.value

end TargetForm

namespace ParamForm

variable {context : Context} {front : List UInt8} {param : RegisterParam}

theorem writable (form : ParamForm context front param) : context.Writable param.name := by
  cases form with
  | named form => exact form.1
  | bound inRegister form => exact form.1

theorem registered (form : ParamForm context front param) : param.register ≠ some ⟨0⟩ := by
  cases form with
  | named form => simp
  | bound inRegister form => simpa using inRegister

theorem bytes_eq (form : ParamForm context front param) : param.bytes context = front := by
  cases form with
  | named form => rw [form.2]; rfl
  | bound inRegister form => rw [form.2]; rfl

theorem bytes_form (writable : context.Writable param.name)
    (registered : param.register ≠ some ⟨0⟩) : ParamForm context (param.bytes context) param := by
  obtain ⟨register, name⟩ := param
  cases register with
  | none => exact .named ⟨writable, rfl⟩
  | some register =>
      have inRegister : register.value ≠ 0 := by
        intro zero
        exact registered (congrArg (fun number => some (RegisterIndex.mk number)) zero)
      exact .bound inRegister ⟨writable, rfl⟩

end ParamForm

namespace BlockHeader

variable {context : Context} {front : List UInt8} {sized : Block UInt16}

theorem writable (header : BlockHeader context front sized) : sized.Writable context := by
  cases header with
  | defineFunction count bodySize nameForm counted paramForms =>
      exact ⟨nameForm.1, paramForms.forall_mem fun _ _ form => form.1⟩
  | defineFunction2 count registerCount flags bodySize nameForm allowed counted paramForms =>
      exact ⟨nameForm.1, paramForms.forall_mem fun _ _ form => form.writable⟩
  | tryCatch flags trySize catchSize finallySize allowed targetForm => exact targetForm.writable
  | withObject bodySize => trivial

theorem registered (header : BlockHeader context front sized) : sized.Registered := by
  cases header with
  | defineFunction2 count registerCount flags bodySize nameForm allowed counted paramForms =>
      exact paramForms.forall_mem fun _ _ form => form.registered
  | _ => trivial

theorem unreserved (header : BlockHeader context front sized) :
    sized.Unreserved ∨ context.lenient = true := by
  cases header with
  | defineFunction2 count registerCount flags bodySize nameForm allowed counted paramForms =>
      exact allowed
  | _ => exact .inl trivial

/-- What is written for fields is a header of them, if its length can be declared. -/
theorem bytes_form (writable : sized.Writable context) (registered : sized.Registered)
    (unreserved : sized.Unreserved ∨ context.lenient = true)
    (short : sized.headerSize context ≤ 65535) :
    BlockHeader context (sized.bytes context) sized := by
  cases sized with
  | defineFunction name params bodySize =>
      have counted := length_le_sumOver fun text (_ : text ∈ params) => context.textSize_pos text
      rw [Block.headerSize] at short
      have small : params.length < 65536 := by omega
      exact .defineFunction _ bodySize ⟨writable.1, rfl⟩ (UInt16.toNat_ofNat_of_lt' small).symm
        (Sequence.of_forall_mem fun param member => ⟨writable.2 param member, rfl⟩)
  | defineFunction2 name registerCount flags params bodySize =>
      have counted := length_le_sumOver fun param (_ : param ∈ params) =>
        param.size_pos context
      rw [Block.headerSize] at short
      have small : params.length < 65536 := by omega
      exact .defineFunction2 _ registerCount flags bodySize ⟨writable.1, rfl⟩ unreserved
        (UInt16.toNat_ofNat_of_lt' small).symm
        (Sequence.of_forall_mem fun param member =>
          ParamForm.bytes_form (writable.2 param member) (registered param member))
  | tryCatch trySize target catchSize finallySize =>
      obtain ⟨clear, announced⟩ := Block.handlerFlags_bits target catchSize finallySize
      refine .tryCatch _ trySize catchSize finallySize (.inl clear) ?_
      rw [announced]
      exact TargetForm.bytes_form writable
  | withObject bodySize => exact .withObject bodySize

/-- What is written for fields is as long as what they were read from. -/
theorem length_bytes (header : BlockHeader context front sized) :
    (sized.bytes context).length = front.length := by
  cases header with
  | defineFunction count bodySize nameForm counted paramForms =>
      have same := paramForms.flatMap_eq fun _ _ stands => stands.form_of.2.symm
      simp [Block.bytes, same, nameForm.2]
  | defineFunction2 count registerCount flags bodySize nameForm allowed counted paramForms =>
      have same := paramForms.flatMap_eq fun _ _ stands => stands.form_of.bytes_eq
      simp [Block.bytes, same, nameForm.2]
  | tryCatch flags trySize catchSize finallySize allowed targetForm =>
      simp [Block.bytes, targetForm.bytes_eq]
  | withObject bodySize => rfl

/-- Fields are written the way they were read unless the header is lossy. -/
theorem bytes_eq_iff (header : BlockHeader context front sized) :
    sized.bytes context = front ↔ ¬ LossyBlock front sized := by
  cases header with
  | defineFunction count bodySize nameForm counted paramForms =>
      refine iff_of_true ?_ fun lossy => absurd lossy.kind_eq nofun
      have same := paramForms.flatMap_eq fun _ _ stands => stands.form_of.2.symm
      rw [Block.bytes, counted, UInt16.ofNat_toNat, same, nameForm.2]
  | defineFunction2 count registerCount flags bodySize nameForm allowed counted paramForms =>
      refine iff_of_true ?_ fun lossy => absurd lossy.kind_eq nofun
      have same := paramForms.flatMap_eq fun _ _ stands => stands.form_of.bytes_eq
      rw [Block.bytes, counted, UInt16.ofNat_toNat, same, nameForm.2]
  | tryCatch flags trySize catchSize finallySize allowed targetForm =>
      simp only [Block.bytes, targetForm.bytes_eq, List.cons_append, List.nil_append,
        List.cons.injEq, and_true, Block.handlerFlags_eq_iff targetForm.isRegister_eq.symm]
      constructor
      · rintro ⟨clear, catches, finishes⟩ lossy
        cases lossy with
        | reserved reserved => exact reserved clear
        | catchPresence differs => exact differs catches
        | finallyPresence differs => exact differs finishes
      · intro kept
        exact ⟨not_not.mp fun reserved => kept (.reserved reserved),
          not_not.mp fun differs => kept (.catchPresence differs),
          not_not.mp fun differs => kept (.finallyPresence differs)⟩
  | withObject bodySize => exact iff_of_true rfl fun lossy => absurd lossy.kind_eq nofun

end BlockHeader

end ActionStream
