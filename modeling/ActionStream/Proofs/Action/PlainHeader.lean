import ActionStream.Action.Plain
import ActionStream.Proofs.Operand.Form
import ActionStream.Proofs.Wire.Word

/-!
# Headers without regions

The field table of the thirteen kinds of action without regions.  A header reader accepts the rows
of its kind; only the operands of a push have no end of their own and fill the header.
-/

namespace ActionStream

/-- A method is meant by its own bits and by no others. -/
theorem SendMethod.ofBits?_eq_some_iff {bits : UInt8} {method : SendMethod} :
    ofBits? bits = some method ↔ bits = method.bits := by
  revert bits
  apply Wire.forall_byte
  cases method <;> decide +kernel

/-- The headers of actions without regions, field by field. -/
inductive PlainHeader (context : Context) : Form Plain
  | gotoFrame (frame : UInt16) : PlainHeader context (Wire.bytesOf16 frame) (.gotoFrame frame)
  | getUrl {first second : List UInt8} {url target : String} (urlForm : TextForm context first url)
      (targetForm : TextForm context second target) :
      PlainHeader context (first ++ second) (.getUrl url target)
  | storeRegister (number : UInt8) : PlainHeader context [number] (.storeRegister ⟨number⟩)
  | constantPool {bytes : List UInt8} {strings : List String} (count : UInt16)
      (counted : strings.length = count.toNat) (forms : Sequence (TextForm context) bytes strings) :
      PlainHeader context (Wire.bytesOf16 count ++ bytes) (.constantPool strings)
  | waitForFrame (frame : UInt16) (skipCount : UInt8) :
      PlainHeader context (Wire.bytesOf16 frame ++ [skipCount]) (.waitForFrame frame skipCount)
  | setTarget {bytes : List UInt8} {target : String} (form : TextForm context bytes target) :
      PlainHeader context bytes (.setTarget target)
  | gotoLabel {bytes : List UInt8} {label : String} (form : TextForm context bytes label) :
      PlainHeader context bytes (.gotoLabel label)
  | waitForFrame2 (skipCount : UInt8) : PlainHeader context [skipCount] (.waitForFrame2 skipCount)
  | push {bytes : List UInt8} {values : List PushValue}
      (forms : Sequence (OperandForm context) bytes values) :
      PlainHeader context bytes (.push values)
  | jump (offset : Int16) : PlainHeader context (Wire.bytesOf16 offset.toUInt16) (.jump offset)
  | getUrl2 (flags : UInt8) {method : SendMethod}
      (allowed : flags &&& 0x3C = 0 ∨ context.lenient = true)
      (meaning : flags &&& 0x03 = method.bits) :
      PlainHeader context [flags] (.getUrl2 method (flags &&& 0x40 != 0) (flags &&& 0x80 != 0))
  | branchIf (offset : Int16) :
      PlainHeader context (Wire.bytesOf16 offset.toUInt16) (.branchIf offset)
  | gotoFrame2 (flags : UInt8) (allowed : flags &&& 0xFC = 0 ∨ context.lenient = true)
      (unbiased : flags &&& 0x02 = 0) :
      PlainHeader context [flags] (.gotoFrame2 (flags &&& 0x01 != 0) 0)
  | biasedGotoFrame2 (flags : UInt8) (sceneBias : UInt16)
      (allowed : flags &&& 0xFC = 0 ∨ context.lenient = true) (biased : flags &&& 0x02 ≠ 0) :
      PlainHeader context (flags :: Wire.bytesOf16 sceneBias)
        (.gotoFrame2 (flags &&& 0x01 != 0) sceneBias)

theorem accepts_refuseReserved {marks : List Nat} (context : Context) (opcode : UInt8)
    (reserved flags : UInt16) :
    Reader.Accepts marks (refuseReserved context opcode reserved flags) fun front _ =>
      front = [] ∧ (reserved = 0 ∨ context.lenient = true) := by
  unfold refuseReserved
  split
  next refused =>
    refine (Reader.accepts_throw _).congr fun front _ => ?_
    simp [refused.1, refused.2]
  next allowed =>
    refine (Reader.accepts_pure ()).congr fun front _ => ?_
    rw [not_and_or, not_not, Bool.not_eq_false] at allowed
    simp [allowed]

namespace Plain

variable {marks : List Nat}

/-- The method in the flag byte of a request; one combination of bits has none. -/
theorem accepts_request (flags : UInt8) :
    Reader.Accepts marks
      (match SendMethod.ofBits? (flags &&& 0x03) with
        | some method => pure (getUrl2 method (flags &&& 0x40 != 0) (flags &&& 0x80 != 0))
        | none => throw (.invalidFlags 0x9A flags.toUInt16))
      fun front fields => front = [] ∧ ∃ method : SendMethod,
        flags &&& 0x03 = method.bits ∧
          fields = getUrl2 method (flags &&& 0x40 != 0) (flags &&& 0x80 != 0) := by
  simp only [← SendMethod.ofBits?_eq_some_iff]
  cases SendMethod.ofBits? (flags &&& 0x03) with
  | none => exact (Reader.accepts_throw _).congr (by simp)
  | some method => exact (Reader.accepts_pure _).congr (by simp)

theorem accepts_readRequest (context : Context) :
    Reader.Accepts marks (readRequest context) fun front fields =>
      fields.kind = .getUrl2 ∧ PlainHeader context front fields := by
  have composed : Reader.Accepts marks _ _ := Reader.accepts_byte.bind fun flags =>
    (accepts_refuseReserved context 0x9A (flags &&& 0x3C).toUInt16 flags.toUInt16).bind fun _ =>
      accepts_request flags
  refine Reader.Accepts.congr composed fun front fields => ?_
  constructor
  · rintro ⟨_, _, flags, rfl, ⟨_, _, _, ⟨rfl, allowed⟩, ⟨rfl, method, meaning, rfl⟩, rfl⟩, rfl⟩
    rw [Wire.toUInt16_eq_zero_iff] at allowed
    exact ⟨rfl, .getUrl2 flags allowed meaning⟩
  · rintro ⟨sameKind, form⟩
    cases form <;> cases sameKind
    next flags method allowed meaning =>
      rw [← Wire.toUInt16_eq_zero_iff] at allowed
      exact ⟨[flags], [], flags, rfl, ⟨[], [], (), ⟨rfl, allowed⟩, ⟨rfl, method, meaning, rfl⟩,
        rfl⟩, rfl⟩

/-- The bias of a jump to a frame, which one flag bit announces. -/
theorem accepts_sceneBias (flags : UInt8) (play : Bool) :
    Reader.Accepts marks
      (if flags &&& 0x02 = 0 then do
        let sceneBias ← pure 0
        return gotoFrame2 play sceneBias
      else do
        let sceneBias ← Reader.word16
        return gotoFrame2 play sceneBias)
      fun front fields =>
        (flags &&& 0x02 = 0 ∧ front = [] ∧ fields = gotoFrame2 play 0) ∨
          (flags &&& 0x02 ≠ 0 ∧ ∃ sceneBias, front = Wire.bytesOf16 sceneBias ∧
            fields = gotoFrame2 play sceneBias) := by
  by_cases unbiased : flags &&& 0x02 = 0
  · rw [if_pos unbiased]
    exact (Reader.accepts_pure (gotoFrame2 play 0)).congr (by simp [unbiased])
  · rw [if_neg unbiased]
    have composed : Reader.Accepts marks _ _ :=
      (Reader.accepts_word16As "u16").andReturn (gotoFrame2 play)
    exact composed.congr (by simp [unbiased, eq_comm])

theorem accepts_readFrameJump (context : Context) :
    Reader.Accepts marks (readFrameJump context) fun front fields =>
      fields.kind = .gotoFrame2 ∧ PlainHeader context front fields := by
  have composed : Reader.Accepts marks _ _ := Reader.accepts_byte.bind fun flags =>
    (accepts_refuseReserved context 0x9F (flags &&& 0xFC).toUInt16 flags.toUInt16).bind fun _ =>
      accepts_sceneBias flags (flags &&& 0x01 != 0)
  refine Reader.Accepts.congr composed fun front fields => ?_
  constructor
  · rintro ⟨_, _, flags, rfl, ⟨_, _, _, ⟨rfl, allowed⟩, bias, rfl⟩, rfl⟩
    rw [Wire.toUInt16_eq_zero_iff] at allowed
    obtain ⟨unbiased, rfl, rfl⟩ | ⟨biased, sceneBias, rfl, rfl⟩ := bias
    · exact ⟨rfl, .gotoFrame2 flags allowed unbiased⟩
    · exact ⟨rfl, .biasedGotoFrame2 flags sceneBias allowed biased⟩
  · rintro ⟨sameKind, form⟩
    cases form <;> cases sameKind
    next flags allowed unbiased =>
      rw [← Wire.toUInt16_eq_zero_iff] at allowed
      exact ⟨[flags], [], flags, rfl, ⟨[], [], (), ⟨rfl, allowed⟩, .inl ⟨unbiased, rfl, rfl⟩, rfl⟩,
        rfl⟩
    next flags sceneBias allowed biased =>
      rw [← Wire.toUInt16_eq_zero_iff] at allowed
      exact ⟨[flags], _, flags, rfl,
        ⟨[], _, (), ⟨rfl, allowed⟩, .inr ⟨biased, sceneBias, rfl, rfl⟩, rfl⟩, rfl⟩

/-- Every kind but a push is read from the rows of its kind in the field table. -/
theorem accepts_read (context : Context) {kind : PlainKind} (bounded : kind ≠ .push) :
    Reader.Accepts marks (read context kind) fun front fields =>
      fields.kind = kind ∧ PlainHeader context front fields := by
  cases kind with
  | gotoFrame =>
      refine (Reader.accepts_word16As "u16").map.congr fun front fields => ⟨?_, ?_⟩
      · rintro ⟨frame, rfl, rfl⟩
        exact ⟨rfl, .gotoFrame frame⟩
      · rintro ⟨sameKind, form⟩
        cases form <;> cases sameKind
        exact ⟨_, rfl, rfl⟩
  | getUrl =>
      have composed : Reader.Accepts marks _ _ := (Reader.accepts_text context).bind fun url =>
        (Reader.accepts_text context).andReturn fun target => getUrl url target
      refine Reader.Accepts.congr composed fun front fields => ⟨?_, ?_⟩
      · rintro ⟨_, _, url, urlForm, ⟨target, targetForm, rfl⟩, rfl⟩
        exact ⟨rfl, .getUrl urlForm targetForm⟩
      · rintro ⟨sameKind, form⟩
        cases form <;> cases sameKind
        next urlForm targetForm => exact ⟨_, _, _, urlForm, ⟨_, targetForm, rfl⟩, rfl⟩
  | storeRegister =>
      refine Reader.accepts_byte.map.congr fun front fields => ⟨?_, ?_⟩
      · rintro ⟨number, rfl, rfl⟩
        exact ⟨rfl, .storeRegister number⟩
      · rintro ⟨sameKind, form⟩
        cases form <;> cases sameKind
        exact ⟨_, rfl, rfl⟩
  | constantPool =>
      have strings (count : Nat) :
          Reader.Accepts marks (constantPool <$> Reader.repeated (Reader.text context) count) _ :=
        (Reader.accepts_repeated (Reader.accepts_text context) count).map
      have composed : Reader.Accepts marks _ _ := (Reader.accepts_word16As "u16").bind fun count =>
        strings count.toNat
      refine Reader.Accepts.congr composed fun front fields => ⟨?_, ?_⟩
      · rintro ⟨_, _, count, rfl, ⟨strings, ⟨counted, forms⟩, rfl⟩, rfl⟩
        exact ⟨rfl, .constantPool count counted forms⟩
      · rintro ⟨sameKind, form⟩
        cases form <;> cases sameKind
        next count counted forms => exact ⟨_, _, count, rfl, ⟨_, ⟨counted, forms⟩, rfl⟩, rfl⟩
  | waitForFrame =>
      have composed : Reader.Accepts marks _ _ := (Reader.accepts_word16As "u16").bind fun frame =>
        Reader.accepts_byte.andReturn fun skipCount => waitForFrame frame skipCount
      refine Reader.Accepts.congr composed fun front fields => ⟨?_, ?_⟩
      · rintro ⟨_, _, frame, rfl, ⟨skipCount, rfl, rfl⟩, rfl⟩
        exact ⟨rfl, .waitForFrame frame skipCount⟩
      · rintro ⟨sameKind, form⟩
        cases form <;> cases sameKind
        exact ⟨_, _, _, rfl, ⟨_, rfl, rfl⟩, rfl⟩
  | setTarget =>
      refine (Reader.accepts_text context).map.congr fun front fields => ⟨?_, ?_⟩
      · rintro ⟨target, form, rfl⟩
        exact ⟨rfl, .setTarget form⟩
      · rintro ⟨sameKind, form⟩
        cases form <;> cases sameKind
        next form => exact ⟨_, form, rfl⟩
  | gotoLabel =>
      refine (Reader.accepts_text context).map.congr fun front fields => ⟨?_, ?_⟩
      · rintro ⟨label, form, rfl⟩
        exact ⟨rfl, .gotoLabel form⟩
      · rintro ⟨sameKind, form⟩
        cases form <;> cases sameKind
        next form => exact ⟨_, form, rfl⟩
  | waitForFrame2 =>
      refine Reader.accepts_byte.map.congr fun front fields => ⟨?_, ?_⟩
      · rintro ⟨skipCount, rfl, rfl⟩
        exact ⟨rfl, .waitForFrame2 skipCount⟩
      · rintro ⟨sameKind, form⟩
        cases form <;> cases sameKind
        exact ⟨_, rfl, rfl⟩
  | push => exact absurd rfl bounded
  | jump =>
      refine Reader.accepts_signed16.map.congr fun front fields => ⟨?_, ?_⟩
      · rintro ⟨offset, rfl, rfl⟩
        exact ⟨rfl, .jump offset⟩
      · rintro ⟨sameKind, form⟩
        cases form <;> cases sameKind
        exact ⟨_, rfl, rfl⟩
  | getUrl2 => exact accepts_readRequest context
  | branchIf =>
      refine Reader.accepts_signed16.map.congr fun front fields => ⟨?_, ?_⟩
      · rintro ⟨offset, rfl, rfl⟩
        exact ⟨rfl, .branchIf offset⟩
      · rintro ⟨sameKind, form⟩
        cases form <;> cases sameKind
        exact ⟨_, rfl, rfl⟩
  | gotoFrame2 => exact accepts_readFrameJump context

/-- A header that is read from an input of its own: fields, then bytes that stay unread.  Nothing
stays unread behind the operands of a push. -/
theorem read_eq_ok_iff (context : Context) (kind : PlainKind) (header : List UInt8)
    (fields : Plain) (left : Cursor) :
    read context kind (Cursor.ofBytes header) = .ok fields left ↔
      ∃ front extra, header = front ++ extra ∧ left = ⟨extra, front.length, []⟩ ∧
        fields.kind = kind ∧ PlainHeader context front fields ∧ (kind = .push → extra = []) := by
  by_cases unbounded : kind = .push
  · subst unbounded
    change (push <$> MonadCursor.untilEnd (PushValue.read context)) ⟨header, 0, []⟩ = _ ↔ _
    rw [map_eq_ok_iff]
    constructor
    · rintro ⟨values, readValues, rfl⟩
      rw [Reader.untilEnd_eq_ok_iff (PushValue.accepts_read context) OperandForm.nonempty]
        at readValues
      obtain ⟨forms, rfl⟩ := readValues
      exact ⟨header, [], (List.append_nil _).symm, by rw [Nat.zero_add], rfl, .push forms,
        fun _ => rfl⟩
    · rintro ⟨front, extra, rfl, rfl, sameKind, form, nothingLeft⟩
      obtain rfl := nothingLeft rfl
      cases form <;> cases sameKind
      next values forms =>
        refine ⟨values, ?_, rfl⟩
        rw [Reader.untilEnd_eq_ok_iff (PushValue.accepts_read context) OperandForm.nonempty]
        simpa using forms
  · rw [Cursor.ofBytes, accepts_read context unbounded]
    constructor
    · rintro ⟨front, rest, ⟨sameKind, form⟩, split, rfl⟩
      exact ⟨front, rest, split, by rw [Nat.zero_add], sameKind, form,
        fun isPush => absurd isPush unbounded⟩
    · rintro ⟨front, extra, split, rfl, sameKind, form, -⟩
      exact ⟨front, extra, ⟨sameKind, form⟩, split, by rw [Nat.zero_add]⟩

end Plain

end ActionStream
