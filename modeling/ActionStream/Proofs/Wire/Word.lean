import ActionStream.Wire.LittleEndian

/-!
# Words, continued

A word has only one byte form, of a fixed length.  A statement about a byte can be checked on all
bytes.
-/

namespace ActionStream.Wire

@[simp]
theorem length_bytesOf16 (word : UInt16) : (bytesOf16 word).length = 2 :=
  rfl

@[simp]
theorem length_bytesOf32 (word : UInt32) : (bytesOf32 word).length = 4 :=
  rfl

theorem bytesOf16_injective {first second : UInt16}
    (same : bytesOf16 first = bytesOf16 second) : first = second := by
  unfold bytesOf16 at same
  simp only [List.cons.injEq, and_true] at same
  rw [← word16_bytesOf16 first, ← word16_bytesOf16 second, same.1, same.2]

theorem forall_byte {holds : UInt8 → Prop} (all : ∀ number < 256, holds (UInt8.ofNat number))
    (byte : UInt8) : holds byte := by
  have onNumber := all byte.toNat byte.toNat_lt
  rwa [UInt8.ofNat_toNat] at onNumber

@[simp]
theorem toUInt16_eq_zero_iff (byte : UInt8) : byte.toUInt16 = 0 ↔ byte = 0 := by
  rw [← UInt16.toNat_inj, ← UInt8.toNat_inj, UInt8.toNat_toUInt16]
  rfl

end ActionStream.Wire
