import ActionStream.Action.Block
import ActionStream.Proofs.Action.PlainHeader

/-!
# Headers with regions

The field table of the four kinds of action with regions.  A header gives the number of bytes of
every region.  Two bits in the flag byte of an exception handler say that regions are present; they
are free, since only the sizes decide.
-/

namespace ActionStream

/-- The parameters of a function with registers: a register byte, zero for none, and a name. -/
inductive ParamForm (context : Context) : Form RegisterParam
  | named {bytes : List UInt8} {name : String} (form : TextForm context bytes name) :
      ParamForm context (0 :: bytes) ⟨none, name⟩
  | bound {register : UInt8} {bytes : List UInt8} {name : String} (inRegister : register ≠ 0)
      (form : TextForm context bytes name) :
      ParamForm context (register :: bytes) ⟨some ⟨register⟩, name⟩

/-- The catch targets: a register if the flag byte says so, or else a name. -/
inductive TargetForm (context : Context) : Bool → Form CatchTarget
  | name {bytes : List UInt8} {text : String} (form : TextForm context bytes text) :
      TargetForm context false bytes (.name text)
  | register (number : UInt8) : TargetForm context true [number] (.register ⟨number⟩)

/-- The headers of actions with regions, field by field. -/
inductive BlockHeader (context : Context) : Form (Block UInt16)
  | defineFunction {nameBytes paramBytes : List UInt8} {name : String} {params : List String}
      (count bodySize : UInt16) (nameForm : TextForm context nameBytes name)
      (counted : params.length = count.toNat)
      (paramForms : Sequence (TextForm context) paramBytes params) :
      BlockHeader context
        (nameBytes ++ (Wire.bytesOf16 count ++ (paramBytes ++ Wire.bytesOf16 bodySize)))
        (.defineFunction name params bodySize)
  | defineFunction2 {nameBytes paramBytes : List UInt8} {name : String}
      {params : List RegisterParam} (count : UInt16) (registerCount : UInt8)
      (flags : FunctionFlags) (bodySize : UInt16) (nameForm : TextForm context nameBytes name)
      (allowed : flags.bits &&& 0xFE00 = 0 ∨ context.lenient = true)
      (counted : params.length = count.toNat)
      (paramForms : Sequence (ParamForm context) paramBytes params) :
      BlockHeader context
        (nameBytes ++ (Wire.bytesOf16 count ++ ([registerCount] ++ (Wire.bytesOf16 flags.bits ++
          (paramBytes ++ Wire.bytesOf16 bodySize)))))
        (.defineFunction2 name registerCount flags params bodySize)
  | tryCatch {targetBytes : List UInt8} {target : CatchTarget} (flags : UInt8)
      (trySize catchSize finallySize : UInt16)
      (allowed : flags &&& 0xF8 = 0 ∨ context.lenient = true)
      (targetForm : TargetForm context (flags &&& 0x04 != 0) targetBytes target) :
      BlockHeader context
        ([flags] ++ (Wire.bytesOf16 trySize ++ (Wire.bytesOf16 catchSize ++
          (Wire.bytesOf16 finallySize ++ targetBytes))))
        (.tryCatch trySize target catchSize finallySize)
  | withObject (bodySize : UInt16) :
      BlockHeader context (Wire.bytesOf16 bodySize) (.withObject bodySize)

section

variable {marks : List Nat}

theorem RegisterParam.accepts_read (context : Context) :
    Reader.Accepts marks (read context) (ParamForm context) := by
  have composed : Reader.Accepts marks _ _ := Reader.accepts_byte.bind fun register =>
    (Reader.accepts_text context).andReturn fun name =>
      (⟨if register = 0 then none else some ⟨register⟩, name⟩ : RegisterParam)
  refine Reader.Accepts.congr composed fun front param => ?_
  constructor
  · rintro ⟨_, _, register, rfl, ⟨name, form, rfl⟩, rfl⟩
    split
    next unbound =>
      subst unbound
      exact .named form
    next inRegister => exact .bound inRegister form
  · rintro (@⟨bytes, name, form⟩ | @⟨register, bytes, name, inRegister, form⟩)
    · exact ⟨[0], bytes, 0, rfl, ⟨name, form, rfl⟩, rfl⟩
    · refine ⟨[register], bytes, register, rfl, ⟨name, form, ?_⟩, rfl⟩
      rw [if_neg inRegister]

theorem CatchTarget.accepts_read (context : Context) (inRegister : Bool) :
    Reader.Accepts marks (read context inRegister) (TargetForm context inRegister) := by
  cases inRegister with
  | false =>
      refine (Reader.accepts_text context).map.congr fun front target => ?_
      constructor
      · rintro ⟨text, form, rfl⟩
        exact .name form
      · intro form
        cases form with
        | name form => exact ⟨_, form, rfl⟩
  | true =>
      refine Reader.accepts_byte.map.congr fun front target => ?_
      constructor
      · rintro ⟨number, rfl, rfl⟩
        exact .register number
      · intro form
        cases form with
        | register number => exact ⟨number, rfl, rfl⟩

/-- Every kind is read from the rows of its kind in the field table. -/
theorem Block.accepts_read (context : Context) (kind : BlockKind) :
    Reader.Accepts marks (read context kind) fun front fields =>
      fields.kind = kind ∧ BlockHeader context front fields := by
  cases kind with
  | defineFunction2 =>
      have composed : Reader.Accepts marks _ _ := (Reader.accepts_text context).bind fun name =>
        (Reader.accepts_word16As "u16").bind fun count =>
          Reader.accepts_byte.bind fun registerCount =>
            (Reader.accepts_word16As "u16").bind fun bits =>
              (accepts_refuseReserved context 0x8E (FunctionFlags.reserved ⟨bits⟩) bits).bind
                fun _ =>
                  (Reader.accepts_repeated (RegisterParam.accepts_read context)
                    count.toNat).bind fun params =>
                      (Reader.accepts_word16As "u16").andReturn fun bodySize =>
                        defineFunction2 name registerCount ⟨bits⟩ params bodySize
      refine Reader.Accepts.congr composed fun front fields => ⟨?_, ?_⟩
      · rintro ⟨_, _, name, nameForm, ⟨_, _, count, rfl, ⟨_, _, registerCount, rfl,
          ⟨_, _, bits, rfl, ⟨_, _, _, ⟨rfl, allowed⟩, ⟨_, _, params, ⟨counted, paramForms⟩,
            ⟨bodySize, rfl, rfl⟩, rfl⟩, rfl⟩, rfl⟩, rfl⟩, rfl⟩, rfl⟩
        rw [List.nil_append]
        exact ⟨rfl, .defineFunction2 count registerCount ⟨bits⟩ bodySize nameForm allowed counted
          paramForms⟩
      · rintro ⟨sameKind, header⟩
        cases header <;> cases sameKind
        next count registerCount flags bodySize nameForm allowed counted paramForms =>
          exact ⟨_, _, _, nameForm, ⟨_, _, count, rfl, ⟨_, _, registerCount, rfl,
            ⟨_, _, flags.bits, rfl, ⟨[], _, (), ⟨rfl, allowed⟩, ⟨_, _, _, ⟨counted, paramForms⟩,
              ⟨bodySize, rfl, rfl⟩, rfl⟩, rfl⟩, rfl⟩, rfl⟩, rfl⟩, rfl⟩
  | tryCatch =>
      have composed : Reader.Accepts marks _ _ := Reader.accepts_byte.bind fun flags =>
        (accepts_refuseReserved context 0x8F (flags &&& 0xF8).toUInt16 flags.toUInt16).bind
          fun _ => (Reader.accepts_word16As "u16").bind fun trySize =>
            (Reader.accepts_word16As "u16").bind fun catchSize =>
              (Reader.accepts_word16As "u16").bind fun finallySize =>
                (CatchTarget.accepts_read context (flags &&& 0x04 != 0)).andReturn fun target =>
                  tryCatch trySize target catchSize finallySize
      refine Reader.Accepts.congr composed fun front fields => ⟨?_, ?_⟩
      · rintro ⟨_, _, flags, rfl, ⟨_, _, _, ⟨rfl, allowed⟩, ⟨_, _, trySize, rfl,
          ⟨_, _, catchSize, rfl, ⟨_, _, finallySize, rfl, ⟨target, targetForm, rfl⟩, rfl⟩, rfl⟩,
            rfl⟩, rfl⟩, rfl⟩
        rw [Wire.toUInt16_eq_zero_iff] at allowed
        rw [List.nil_append]
        exact ⟨rfl, .tryCatch flags trySize catchSize finallySize allowed targetForm⟩
      · rintro ⟨sameKind, header⟩
        cases header <;> cases sameKind
        next flags trySize catchSize finallySize allowed targetForm =>
          rw [← Wire.toUInt16_eq_zero_iff] at allowed
          exact ⟨[flags], _, flags, rfl, ⟨[], _, (), ⟨rfl, allowed⟩, ⟨_, _, trySize, rfl,
            ⟨_, _, catchSize, rfl, ⟨_, _, finallySize, rfl, ⟨_, targetForm, rfl⟩, rfl⟩, rfl⟩,
              rfl⟩, rfl⟩, rfl⟩
  | withObject =>
      refine (Reader.accepts_word16As "u16").map.congr fun front fields => ⟨?_, ?_⟩
      · rintro ⟨bodySize, rfl, rfl⟩
        exact ⟨rfl, .withObject bodySize⟩
      · rintro ⟨sameKind, header⟩
        cases header <;> cases sameKind
        exact ⟨_, rfl, rfl⟩
  | defineFunction =>
      have composed : Reader.Accepts marks _ _ := (Reader.accepts_text context).bind fun name =>
        (Reader.accepts_word16As "u16").bind fun count =>
          (Reader.accepts_repeated (Reader.accepts_text context) count.toNat).bind fun params =>
            (Reader.accepts_word16As "u16").andReturn fun bodySize =>
              defineFunction name params bodySize
      refine Reader.Accepts.congr composed fun front fields => ⟨?_, ?_⟩
      · rintro ⟨_, _, name, nameForm, ⟨_, _, count, rfl, ⟨_, _, params, ⟨counted, paramForms⟩,
          ⟨bodySize, rfl, rfl⟩, rfl⟩, rfl⟩, rfl⟩
        exact ⟨rfl, .defineFunction count bodySize nameForm counted paramForms⟩
      · rintro ⟨sameKind, header⟩
        cases header <;> cases sameKind
        next count bodySize nameForm counted paramForms =>
          exact ⟨_, _, _, nameForm, ⟨_, _, count, rfl, ⟨_, _, _, ⟨counted, paramForms⟩,
            ⟨bodySize, rfl, rfl⟩, rfl⟩, rfl⟩, rfl⟩

/-- A header that is read from an input of its own: fields, then bytes that stay unread. -/
theorem Block.read_eq_ok_iff (context : Context) (kind : BlockKind) (header : List UInt8)
    (sized : Block UInt16) (left : Cursor) :
    read context kind (Cursor.ofBytes header) = .ok sized left ↔
      ∃ front extra, header = front ++ extra ∧ left = ⟨extra, front.length, []⟩ ∧
        sized.kind = kind ∧ BlockHeader context front sized := by
  rw [Cursor.ofBytes, accepts_read context kind]
  constructor
  · rintro ⟨front, rest, ⟨sameKind, form⟩, split, rfl⟩
    exact ⟨front, rest, split, by rw [Nat.zero_add], sameKind, form⟩
  · rintro ⟨front, extra, split, rfl, sameKind, form⟩
    exact ⟨front, extra, ⟨sameKind, form⟩, split, by rw [Nat.zero_add]⟩

end

end ActionStream
