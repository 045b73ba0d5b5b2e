import ActionStream.Operand.Property
import ActionStream.Proofs.Number.Truncation

/-!
# Words of properties

An integer word is read as the code that it is.  A floating-point word is read as a code only if it
is the written form of one: these are the integers in the range of the codes, as far as they are
numbers, and the power of two above the range.  Up to the greatest code that has to be exact, every
code is read from its word.
-/

namespace ActionStream

namespace Property

theorem ofWireWord?_integer (word : UInt32) : ofWireWord? word false = some ⟨word.toInt32⟩ := by
  simp [ofWireWord?, wireWord]

theorem ofWireWord?_float (word : UInt32) :
    ofWireWord? word true =
      if Binary32.ofInt (Binary32.toInt word) = word then some ⟨Binary32.toInt word⟩ else none :=
  rfl

theorem ofWireWord?_float_eq_none_iff (word : UInt32) :
    ofWireWord? word true = none ↔ ¬ Binary32.IsCodeWord word := by
  rw [ofWireWord?_float]
  split
  next back =>
    simp only [reduceCtorEq, false_iff, not_not]
    exact (Binary32.isCodeWord_iff word).mpr ⟨_, back⟩
  next notBack =>
    simp only [true_iff]
    exact fun isCodeWord => notBack isCodeWord.ofInt_toInt

/-- A floating-point word stands for a code if it is the word of some code. -/
theorem ofWireWord?_float_eq_some_iff (word : UInt32) (known : Property) :
    ofWireWord? word true = some known ↔
      (∃ code, Binary32.ofInt code = word) ∧ known = ⟨Binary32.toInt word⟩ := by
  rw [ofWireWord?_float, ← Binary32.isCodeWord_iff]
  split
  next back =>
    have isCodeWord := (Binary32.isCodeWord_iff word).mpr ⟨_, back⟩
    simp [isCodeWord, @eq_comm _ known]
  next notBack => simp [mt Binary32.IsCodeWord.ofInt_toInt notBack]

/-- A code that a floating-point word has exactly is read from its word. -/
theorem ofWireWord?_wireWord {known : Property} (least : 0 ≤ known.toInt)
    (greatest : known.toInt ≤ greatestCode) (asFloat : Bool) :
    ofWireWord? (known.wireWord asFloat) asFloat = some known := by
  cases asFloat with
  | false =>
      rw [ofWireWord?_integer, wireWord]
      simp
  | true =>
      unfold greatestCode at greatest
      have small : known.code.toInt.natAbs ≤ 2 ^ 24 := by
        unfold toInt at least greatest
        omega
      have read : Binary32.toInt (Binary32.ofInt known.code) = known.code := by
        apply Int32.toInt_inj.mp
        rw [Binary32.toInt_toInt, Binary32.truncation, Binary32.number?_ofInt_of_natAbs_le small]
        simp only [Binary32.truncated_intCast]
        omega
      have back : ofWireWord? (Binary32.ofInt known.code) true = some known := by
        rw [ofWireWord?_float, read, if_pos rfl]
      exact back

end Property

end ActionStream
