import ActionStream.Proofs.Text.Delimited

/-!
# Which texts a context can hold

A text can be written if the character set covers it and its end can be marked.  Both are said here
of the characters alone: up to version 5 only the first 256 characters have a byte, and a text that
ends at a zero byte has no zero character, because no other character is encoded with a zero byte.
-/

namespace ActionStream

/-- The zero character is the only one whose encoded form has a zero byte. -/
theorem Text.Utf8.zero_mem_utf8EncodeChar_iff (character : Char) :
    0 ∈ String.utf8EncodeChar character ↔ character = '\x00' := by
  have zero : character = '\x00' ↔ character.toNat = 0 :=
    ⟨fun same => same ▸ rfl, fun code => by rw [← Char.ofNat_toNat character, code]⟩
  have isZero (code : Nat) : 0 = UInt8.ofNat code ↔ code % 256 = 0 := by
    rw [← UInt8.toNat_inj, UInt8.toNat_ofNat', eq_comm]
    rfl
  have bound : character.toNat < 0x110000 := by
    have valid := character.valid
    simp only [UInt32.isValidChar, Nat.isValidChar, Char.toNat_val] at valid
    omega
  rw [zero]
  simp only [String.utf8EncodeChar, Char.toNat_val]
  split_ifs <;> simp only [List.mem_cons, List.not_mem_nil, or_false, isZero] <;> omega

namespace TextEncoding

/-- The encoded form of a covered text has a zero byte only for a zero character. -/
theorem zero_mem_rawBytes_iff {encoding : TextEncoding} {text : String}
    (covered : encoding.Covers text) : 0 ∈ encoding.rawBytes text ↔ '\x00' ∈ text.toList := by
  cases encoding with
  | latin1 =>
      rw [rawBytes, List.mem_map]
      constructor
      · rintro ⟨character, member, isZero⟩
        have small := covered character member
        have code : character.toNat = 0 := by
          have sameCode := congrArg UInt8.toNat isZero
          rwa [UInt8.toNat_ofNat_of_lt' small] at sameCode
        have same : character = '\x00' := by
          rw [← Char.ofNat_toNat character, code]
        exact same ▸ member
      · exact fun member => ⟨'\x00', member, rfl⟩
  | utf8 =>
      rw [rawBytes, Text.Utf8.encode, List.mem_flatMap]
      simp only [Text.Utf8.zero_mem_utf8EncodeChar_iff, exists_eq_right]

end TextEncoding

namespace Context

/-- The characters of a text have a byte form in a context and none of them is taken for its end. -/
def CanHold (context : Context) (text : String) : Prop :=
  (context.version < 6 → ∀ character ∈ text.toList, character.toNat ≤ 0xFF) ∧
    (context.layout = .nulTerminated → '\x00' ∉ text.toList)

instance (context : Context) (text : String) : Decidable (context.CanHold text) :=
  have : Decidable (∀ character ∈ text.toList, character.toNat ≤ 0xFF) := List.decidableBAll _ _
  inferInstanceAs (Decidable (_ ∧ _))

theorem covers_iff (context : Context) (text : String) :
    context.encoding.Covers text ↔
      (context.version < 6 → ∀ character ∈ text.toList, character.toNat ≤ 0xFF) := by
  rw [encoding, TextEncoding.ofVersion]
  by_cases early : context.version < 6
  · rw [if_pos early, forall_prop_of_true early]
    simp only [TextEncoding.Covers, Nat.lt_succ_iff]
  · rw [if_neg early, forall_prop_of_false early]
    rfl

/-- What can be written is what the context can hold and, where the bytes are counted, can count. -/
theorem writable_iff (context : Context) (text : String) :
    context.Writable text ↔
      context.CanHold text ∧
        (context.layout = .lengthPrefixed → context.encoding.byteLength text ≤ 65535) := by
  rw [Writable, CanHold, ← covers_iff, and_assoc]
  apply and_congr_right
  intro covered
  cases context.layout with
  | nulTerminated => simp [TextLayout.Admits, TextEncoding.zero_mem_rawBytes_iff covered]
  | lengthPrefixed => simp [TextLayout.Admits, TextEncoding.length_rawBytes]

/-- A text whose size can be counted is written if the context can hold it. -/
theorem writable_iff_canHold {context : Context} {text : String}
    (short : context.textSize text ≤ 65535) : context.Writable text ↔ context.CanHold text := by
  rw [writable_iff, and_iff_left]
  intro prefixed
  rw [textSize, prefixed, TextLayout.encodedLength] at short
  exact Nat.le_of_add_right_le short

end Context

end ActionStream
