import ActionStream.Operand.Push
import ActionStream.Proofs.Operand.PropertyWord
import ActionStream.Proofs.Text.Delimited

/-!
# Forms of push operands

An operand is read from every form of the tag table, and written in one of them.  Two tags leave a
choice: any byte that is not zero stands for true, and a small table index may take two bytes.  All
other forms are the written ones.
-/

namespace ActionStream

namespace Binary64

theorem high_ofWords (high low : UInt32) : (ofWords high low).high = high := by
  apply UInt32.toNat_inj.mp
  have highBound := high.toNat_lt
  have lowBound := low.toNat_lt
  simp only [Binary64.high, ofWords, UInt64.toNat_ofNat', UInt32.toNat_ofNat', Nat.pow_eq]
  omega

theorem low_ofWords (high low : UInt32) : (ofWords high low).low = low := by
  apply UInt32.toNat_inj.mp
  have highBound := high.toNat_lt
  have lowBound := low.toNat_lt
  simp only [Binary64.low, ofWords, UInt64.toNat_ofNat', UInt32.toNat_ofNat', Nat.pow_eq]
  omega

theorem ofWords_high_low (number : Binary64) : ofWords number.high number.low = number := by
  cases number with
  | mk bits =>
      refine congrArg Binary64.mk (UInt64.toNat_inj.mp ?_)
      have bound := bits.toNat_lt
      simp only [Binary64.high, Binary64.low, UInt64.toNat_ofNat', UInt32.toNat_ofNat', Nat.pow_eq]
      omega

end Binary64

theorem TableIndex.isWide_iff (index : TableIndex) : index.isWide = true ↔ 255 < index.value := by
  simp [TableIndex.isWide]

/-- An index of one byte is not wide. -/
theorem TableIndex.isWide_toUInt16 (number : UInt8) :
    (⟨number.toUInt16⟩ : TableIndex).isWide = false := by
  have bound := number.toNat_lt
  rw [Bool.eq_false_iff, ne_eq, isWide_iff, UInt16.lt_iff_toNat_lt]
  simp only [UInt8.toNat_toUInt16, UInt16.reduceToNat]
  omega

/-- The forms of operands: a tag and what follows it.  A property is the word of its code, which
before version 5 is a floating-point word; such a word that no code has stands for itself. -/
inductive OperandForm (context : Context) : Form PushValue
  | text {bytes : List UInt8} {value : String} (form : TextForm context bytes value) :
      OperandForm context (0 :: bytes) (.text value)
  | integerProperty (code : Int32) (late : 5 ≤ context.version) :
      OperandForm context (1 :: Wire.bytesOf32 code.toUInt32) (.property ⟨code⟩)
  | floatProperty (code : Int32) (early : context.version < 5) :
      OperandForm context (1 :: Wire.bytesOf32 (Binary32.ofInt code))
        (.property ⟨Binary32.toInt (Binary32.ofInt code)⟩)
  | propertyWord {word : UInt32} (early : context.version < 5)
      (ofNoCode : ∀ code, Binary32.ofInt code ≠ word) :
      OperandForm context (1 :: Wire.bytesOf32 word) (.propertyWord word)
  | null : OperandForm context [2] .null
  | undefined : OperandForm context [3] .undefined
  | register (number : UInt8) : OperandForm context [4, number] (.register ⟨number⟩)
  | boolean (byte : UInt8) : OperandForm context [5, byte] (.boolean (byte != 0))
  | double (number : Binary64) :
      OperandForm context (6 :: (Wire.bytesOf32 number.high ++ Wire.bytesOf32 number.low))
        (.double number)
  | integer (value : Int32) :
      OperandForm context (7 :: Wire.bytesOf32 value.toUInt32) (.integer value)
  | narrowConstant (number : UInt8) :
      OperandForm context [8, number] (.constant ⟨number.toUInt16⟩)
  | wideConstant (number : UInt16) :
      OperandForm context (9 :: Wire.bytesOf16 number) (.constant ⟨number⟩)

namespace PushValue

theorem ofPropertyWord_of_late {context : Context} (late : 5 ≤ context.version) (word : UInt32) :
    ofPropertyWord context word = .property ⟨word.toInt32⟩ := by
  have asInteger : context.propertiesAsFloat = false := by
    simpa [Context.propertiesAsFloat] using late
  rw [ofPropertyWord, asInteger, Property.ofWireWord?_integer]

theorem ofPropertyWord_ofInt {context : Context} (early : context.version < 5) (code : Int32) :
    ofPropertyWord context (Binary32.ofInt code) =
      .property ⟨Binary32.toInt (Binary32.ofInt code)⟩ := by
  have asFloat : context.propertiesAsFloat = true := by
    simpa [Context.propertiesAsFloat] using early
  have named := (Property.ofWireWord?_float_eq_some_iff (Binary32.ofInt code) _).mpr
    ⟨⟨code, rfl⟩, rfl⟩
  rw [ofPropertyWord, asFloat, named]

theorem ofPropertyWord_of_forall_ne {context : Context} (early : context.version < 5)
    {word : UInt32} (ofNoCode : ∀ code, Binary32.ofInt code ≠ word) :
    ofPropertyWord context word = .propertyWord word := by
  have asFloat : context.propertiesAsFloat = true := by
    simpa [Context.propertiesAsFloat] using early
  have unnamed : Property.ofWireWord? word true = none := by
    rw [Property.ofWireWord?_float_eq_none_iff, Binary32.isCodeWord_iff]
    exact fun ⟨code, same⟩ => ofNoCode code same
  rw [ofPropertyWord, asFloat, unnamed]

end PushValue

namespace OperandForm

variable {context : Context}

theorem nonempty (front : List UInt8) (value : PushValue)
    (form : OperandForm context front value) : front ≠ [] := by
  cases form <;> exact List.cons_ne_nil _ _

/-- What the tag table says about the bytes behind a tag. -/
def After (context : Context) (tag : UInt8) : Form PushValue := fun front value =>
  if tag = 0 then ∃ text, TextForm context front text ∧ .text text = value
  else if tag = 1 then ∃ word, front = Wire.bytesOf32 word ∧ .ofPropertyWord context word = value
  else if tag = 2 then front = [] ∧ value = .null
  else if tag = 3 then front = [] ∧ value = .undefined
  else if tag = 4 then ∃ number, front = [number] ∧ .register ⟨number⟩ = value
  else if tag = 5 then ∃ byte, front = [byte] ∧ .boolean (byte != 0) = value
  else if tag = 6 then ∃ number : Binary64,
    front = Wire.bytesOf32 number.high ++ Wire.bytesOf32 number.low ∧ .double number = value
  else if tag = 7 then ∃ number, front = Wire.bytesOf32 (Int32.toUInt32 number) ∧
    .integer number = value
  else if tag = 8 then ∃ number, front = [number] ∧ .constant ⟨number.toUInt16⟩ = value
  else if tag = 9 then ∃ number, front = Wire.bytesOf16 number ∧ .constant ⟨number⟩ = value
  else False

variable {tag : UInt8} {front : List UInt8} {value : PushValue}

theorem after_of_cons (form : OperandForm context (tag :: front) value) :
    After context tag front value := by
  generalize bytesEq : tag :: front = bytes at form
  cases form with
  | @text bytes value form =>
      obtain ⟨rfl, rfl⟩ := List.cons.inj bytesEq
      exact ⟨value, form, rfl⟩
  | integerProperty code late =>
      obtain ⟨rfl, rfl⟩ := List.cons.inj bytesEq
      refine ⟨code.toUInt32, rfl, ?_⟩
      rw [PushValue.ofPropertyWord_of_late late, Int32.toInt32_toUInt32]
  | floatProperty code early =>
      obtain ⟨rfl, rfl⟩ := List.cons.inj bytesEq
      exact ⟨Binary32.ofInt code, rfl, PushValue.ofPropertyWord_ofInt early code⟩
  | @propertyWord word early ofNoCode =>
      obtain ⟨rfl, rfl⟩ := List.cons.inj bytesEq
      exact ⟨word, rfl, PushValue.ofPropertyWord_of_forall_ne early ofNoCode⟩
  | null | undefined =>
      obtain ⟨rfl, rfl⟩ := List.cons.inj bytesEq
      exact ⟨rfl, rfl⟩
  | _ =>
      obtain ⟨rfl, rfl⟩ := List.cons.inj bytesEq
      exact ⟨_, rfl, rfl⟩

/-- Every word is one that a property is read from. -/
theorem of_propertyWord (context : Context) (word : UInt32) :
    OperandForm context (1 :: Wire.bytesOf32 word) (.ofPropertyWord context word) := by
  rcases UInt8.lt_or_le context.version 5 with early | late
  · by_cases ofCode : ∃ code, Binary32.ofInt code = word
    · obtain ⟨code, rfl⟩ := ofCode
      rw [PushValue.ofPropertyWord_ofInt early]
      exact .floatProperty code early
    · rw [not_exists] at ofCode
      rw [PushValue.ofPropertyWord_of_forall_ne early ofCode]
      exact .propertyWord early ofCode
  · have form : OperandForm context _ _ := .integerProperty word.toInt32 late
    rwa [PushValue.ofPropertyWord_of_late late]

theorem cons_of_after (after : After context tag front value) :
    OperandForm context (tag :: front) value := by
  unfold After at after
  rcases eq_or_ne tag 0 with rfl | notText
  · obtain ⟨text, form, rfl⟩ := after
    exact .text form
  rw [if_neg notText] at after
  rcases eq_or_ne tag 1 with rfl | notProperty
  · obtain ⟨word, rfl, rfl⟩ := after
    exact of_propertyWord context word
  rw [if_neg notProperty] at after
  rcases eq_or_ne tag 2 with rfl | notNull
  · obtain ⟨rfl, rfl⟩ := after
    exact .null
  rw [if_neg notNull] at after
  rcases eq_or_ne tag 3 with rfl | notUndefined
  · obtain ⟨rfl, rfl⟩ := after
    exact .undefined
  rw [if_neg notUndefined] at after
  rcases eq_or_ne tag 4 with rfl | notRegister
  · obtain ⟨number, rfl, rfl⟩ := after
    exact .register number
  rw [if_neg notRegister] at after
  rcases eq_or_ne tag 5 with rfl | notBoolean
  · obtain ⟨byte, rfl, rfl⟩ := after
    exact .boolean byte
  rw [if_neg notBoolean] at after
  rcases eq_or_ne tag 6 with rfl | notDouble
  · obtain ⟨number, rfl, rfl⟩ := after
    exact .double number
  rw [if_neg notDouble] at after
  rcases eq_or_ne tag 7 with rfl | notInteger
  · obtain ⟨number, rfl, rfl⟩ := after
    exact .integer number
  rw [if_neg notInteger] at after
  rcases eq_or_ne tag 8 with rfl | notNarrow
  · obtain ⟨number, rfl, rfl⟩ := after
    exact .narrowConstant number
  rw [if_neg notNarrow] at after
  rcases eq_or_ne tag 9 with rfl | notWide
  · obtain ⟨number, rfl, rfl⟩ := after
    exact .wideConstant number
  rw [if_neg notWide] at after
  exact after.elim

theorem cons_iff : OperandForm context (tag :: front) value ↔ After context tag front value :=
  ⟨after_of_cons, cons_of_after⟩

end OperandForm

namespace PushValue

variable {marks : List Nat}

theorem accepts_doubleWords :
    Reader.Accepts marks
      (do
        let high ← Reader.word32
        let low ← Reader.word32
        return double (Binary64.ofWords high low))
      fun front value => ∃ number : Binary64,
        front = Wire.bytesOf32 number.high ++ Wire.bytesOf32 number.low ∧
          double number = value := by
  have composed : Reader.Accepts marks _ _ := (Reader.accepts_word32As "u32").bind fun high =>
    (Reader.accepts_word32As "u32").andReturn fun low => double (Binary64.ofWords high low)
  refine Reader.Accepts.congr composed fun front value => ?_
  constructor
  · rintro ⟨_, _, high, rfl, ⟨low, rfl, rfl⟩, rfl⟩
    exact ⟨.ofWords high low, by rw [Binary64.high_ofWords, Binary64.low_ofWords], rfl⟩
  · rintro ⟨number, rfl, rfl⟩
    exact ⟨_, _, number.high, rfl, ⟨number.low, rfl, by rw [Binary64.ofWords_high_low]⟩, rfl⟩

/-- What follows a tag is read by the row of the table that has this tag. -/
theorem accepts_readValue (context : Context) (tag : UInt8) :
    Reader.Accepts marks (readValue context tag) fun front value =>
      OperandForm context (tag :: front) value := by
  refine Reader.Accepts.congr ?_ fun front value => OperandForm.cons_iff.symm
  refine .ite (fun _ => (Reader.accepts_text context).map) fun _ => ?_
  refine .ite (fun _ => (Reader.accepts_word32As "u32").map) fun _ => ?_
  refine .ite (fun _ => Reader.accepts_pure null) fun _ => ?_
  refine .ite (fun _ => Reader.accepts_pure undefined) fun _ => ?_
  refine .ite (fun _ => Reader.accepts_byte.map) fun _ => ?_
  refine .ite (fun _ => Reader.accepts_byte.map) fun _ => ?_
  refine .ite (fun _ => accepts_doubleWords) fun _ => ?_
  refine .ite (fun _ => Reader.accepts_signed32.map) fun _ => ?_
  refine .ite (fun _ => Reader.accepts_byte.map) fun _ => ?_
  refine .ite (fun _ => (Reader.accepts_word16As "u16").map) fun _ => ?_
  exact Reader.accepts_throw (.unknownPushTag tag)

theorem accepts_read (context : Context) :
    Reader.Accepts marks (read context) (OperandForm context) :=
  Reader.accepts_led OperandForm.nonempty (accepts_readValue context)

end PushValue

end ActionStream
