import ActionStream.Proofs.Operand.Written

/-!
# Property operands lose nothing

A word that is read as a code is the written form of this code, and a floating-point word is read as
no code only if it is the written form of none.  A property operand is therefore written as it was
read, whether or not its word stands for a code.
-/

namespace ActionStream

namespace PushValue

/-- Only the version decides what a property word stands for. -/
theorem ofPropertyWord_of_version_eq {first second : Context}
    (sameVersion : first.version = second.version) (word : UInt32) :
    ofPropertyWord first word = ofPropertyWord second word := by
  unfold ofPropertyWord Context.propertiesAsFloat
  rw [sameVersion]

/-- A property operand is written by the bytes that it has been read from. -/
theorem write_readPropertyWord {reading writing : Context}
    (sameVersion : writing.version = reading.version) (word : UInt32) (rest : List UInt8)
    (position : Nat) (marks : List Nat) :
    ∃ value, read reading ⟨1 :: (Wire.bytesOf32 word ++ rest), position, marks⟩ =
        .ok value ⟨rest, position + 5, marks⟩ ∧
      ∀ buffer, value.write writing buffer =
        .ok () (buffer.append (1 :: Wire.bytesOf32 word)) := by
  refine ⟨ofPropertyWord reading word, ?_, fun buffer => ?_⟩
  · exact (accepts_read reading _ _ _ _).mpr
      ⟨1 :: Wire.bytesOf32 word, rest, OperandForm.of_propertyWord reading word, rfl, rfl⟩
  · have written := (emits_write writing (ofPropertyWord writing word)).run
      (writable_ofPropertyWord writing word) buffer
    rwa [bytes_ofPropertyWord, ofPropertyWord_of_version_eq sameVersion] at written

end PushValue

/-- The words of properties lose nothing, where the word of an integer is the nearest number and the
integer of a word its number without the fraction.  A word that is read as a code is written for
this code.  Every integer word is read as a code, and so is a floating-point word if it is written
for a code at all, which is so for the integers from the least code up to the power of two above the
greatest one, without the negative zero.  A property operand that is read and written with the same
version keeps its bytes.  The codes up to 16777216 are read from the words that are written for
them, the next one is not. -/
theorem Property.ofWireWord?_lossless (word : UInt32) :
    (∀ code : Int32, Binary32.ofInt code = word ↔
      word ≠ Binary32.negativeZero ∧ Binary32.IsNearest word code.toInt) ∧
    (Binary32.toInt word).toInt = Binary32.truncation word ∧
    (∀ asFloat known, ofWireWord? word asFloat = some known → known.wireWord asFloat = word) ∧
    (∃ known, ofWireWord? word false = some known) ∧
    (ofWireWord? word true = none ↔ ∀ code : Int32, Binary32.ofInt code ≠ word) ∧
    (ofWireWord? word true = none ↔ ¬ Binary32.IsCodeWord word) ∧
    (∀ reading writing : Context, writing.version = reading.version → ∀ rest position marks,
      ∃ value, PushValue.read reading ⟨1 :: (Wire.bytesOf32 word ++ rest), position, marks⟩ =
          .ok value ⟨rest, position + 5, marks⟩ ∧
        ∀ buffer, value.write writing buffer =
          .ok () (buffer.append (1 :: Wire.bytesOf32 word))) ∧
    (∀ known : Property, 0 ≤ known.toInt → known.toInt ≤ 16777216 → ∀ asFloat,
      ofWireWord? (known.wireWord asFloat) asFloat = some known) ∧
    ofWireWord? (wireWord ⟨16777217⟩ true) true ≠ some ⟨16777217⟩ := by
  refine ⟨fun code => Binary32.ofInt_eq_iff code word, Binary32.toInt_toInt word,
    ?_, ?_, ?_, ?_, ?_, ?_, ?_⟩
  · exact fun asFloat known named => wireWord_of_ofWireWord? named
  · exact ⟨_, ofWireWord?_integer word⟩
  · rw [ofWireWord?_float_eq_none_iff, Binary32.isCodeWord_iff, not_exists]
  · exact ofWireWord?_float_eq_none_iff word
  · exact fun reading writing sameVersion => PushValue.write_readPropertyWord sameVersion word
  · exact fun known least greatest => ofWireWord?_wireWord least greatest
  · decide

/-- The power of two above the range is read as the greatest code, for which it is written again, by
a context that delimits texts in another way; the greatest code that has to be exact is. -/
theorem Property.ofWireWord?_lossless_aboveRange :
    (ofWireWord? 0x4F000000 true = some ⟨2147483647⟩ ∧
      wireWord ⟨2147483647⟩ true = 0x4F000000) ∧
    (∃ value, PushValue.read { version := 4 } ⟨[1, 0, 0, 0, 0x4F, 3], 2, [0]⟩ =
        .ok value ⟨[3], 7, [0]⟩ ∧
      value.write { version := 4, layout := .lengthPrefixed } ⟨#[0x96]⟩ =
        .ok () ⟨#[0x96, 1, 0, 0, 0, 0x4F]⟩) ∧
    ofWireWord? (wireWord ⟨16777216⟩ true) true = some ⟨16777216⟩ := by
  have named : ofWireWord? 0x4F000000 true = some ⟨2147483647⟩ := by decide
  obtain ⟨-, -, written, -, -, -, operand, exact, -⟩ := ofWireWord?_lossless 0x4F000000
  refine ⟨⟨named, written true _ named⟩, ?_, exact ⟨16777216⟩ (by decide) (by decide) true⟩
  obtain ⟨value, reads, writes⟩ := operand { version := 4 }
    { version := 4, layout := .lengthPrefixed } rfl [3] 2 [0]
  exact ⟨value, reads, writes ⟨#[0x96]⟩⟩

end ActionStream
