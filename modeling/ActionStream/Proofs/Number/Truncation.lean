import ActionStream.Proofs.Number.Nearest
import Mathlib.Data.Rat.Floor

/-!
# Numbers as integers

The integer of a word is its number without the fraction, as far as integers reach.  A word whose
number is an integer within this reach, or the power of two that ends it, is therefore the word of
the integer that it is read as, unless it is the negative zero; and the word of an integer is such a
word.
-/

namespace ActionStream.Binary32

section ToInt

/-- A power of two is a word without a fraction. -/
theorem units_powerOfTwo (power : Nat) :
    units ((power + 127) * 2 ^ 23) = 2 ^ power * unitsInOne := by
  have pattern : (power + 127) * 2 ^ 23 = (power + 126) * 2 ^ 23 + 2 ^ 23 := by omega
  rw [pattern, units_add_significand (Nat.le_refl _) (by decide), unitsInOne, ← Nat.pow_add,
    ← Nat.pow_add]
  congr 1
  omega

/-- The exponent tells between which powers of two a magnitude lies. -/
theorem units_lt_iff (bits power : Nat) :
    units bits < 2 ^ power * unitsInOne ↔ bits / 2 ^ 23 < power + 127 := by
  rw [← units_powerOfTwo, strictMono_units.lt_iff_lt, Nat.div_lt_iff_lt_mul (Nat.two_pow_pos 23)]

/-- A magnitude loses the units that do not make up a one. -/
theorem truncatedMagnitude_eq (bits : Nat) :
    truncatedMagnitude (bits / 2 ^ 23) (bits % 2 ^ 23) = units bits / unitsInOne := by
  unfold truncatedMagnitude
  simp only [Nat.pow_eq]
  split
  next belowOne =>
    have short := (units_lt_iff bits 0).mpr (by omega)
    rw [Nat.pow_zero, Nat.one_mul] at short
    exact (Nat.div_eq_of_lt short).symm
  next notBelowOne =>
    have normal : units bits = (2 ^ 23 + bits % 2 ^ 23) * 2 ^ (bits / 2 ^ 23 - 1) := by
      rw [units, if_neg (by omega)]
    rw [normal]
    split
    next fractional =>
      have unit : unitsInOne = 2 ^ (150 - bits / 2 ^ 23) * 2 ^ (bits / 2 ^ 23 - 1) := by
        rw [unitsInOne, ← Nat.pow_add]
        congr 1
        omega
      rw [unit, Nat.mul_div_mul_right _ _ (Nat.two_pow_pos _)]
    next whole =>
      have scale : 2 ^ (bits / 2 ^ 23 - 1) = 2 ^ (bits / 2 ^ 23 - 150) * unitsInOne := by
        rw [unitsInOne, ← Nat.pow_add]
        congr 1
        omega
      rw [scale, ← Nat.mul_assoc, Nat.mul_div_cancel _ unitsInOne_pos]

/-- A number without its fraction. -/
def truncated (number : ℚ) : ℤ :=
  if 0 ≤ number then ⌊number⌋ else ⌈number⌉

theorem truncated_div (count : ℤ) :
    truncated ((count : ℚ) / unitsInOne) = count.tdiv unitsInOne := by
  rw [truncated, Rat.floor_intCast_div_natCast, Rat.ceil_intCast_div_natCast]
  rcases Int.lt_or_le count 0 with negative | nonnegative
  · have below : ¬ (0 : ℚ) ≤ count / unitsInOne :=
      not_le.mpr (div_neg_of_neg_of_pos (Int.cast_lt_zero.mpr negative) unitsInOne_cast_pos)
    rw [if_neg below, ← Int.tdiv_eq_ediv_of_nonneg (by omega), Int.neg_tdiv, neg_neg]
  · have above : (0 : ℚ) ≤ count / unitsInOne :=
      div_nonneg (Int.cast_nonneg nonnegative) unitsInOne_cast_pos.le
    rw [if_pos above, Int.tdiv_eq_ediv_of_nonneg nonnegative]

theorem tdiv_signedUnits (word : UInt32) :
    (signedUnits word).tdiv unitsInOne =
      if isNegative word then -((units (magnitudeField word) / unitsInOne : Nat) : ℤ)
      else (units (magnitudeField word) / unitsInOne : Nat) := by
  rw [signedUnits]
  split
  · rw [Int.neg_tdiv, Int.ofNat_tdiv]
  · rw [Int.ofNat_tdiv]

/-- The integer of a word: its number without the fraction, or the nearer end of the range if that
is outside, and zero for what is not a number. -/
def truncation (word : UInt32) : ℤ :=
  match number? word with
  | some number => max (-2 ^ 31) (min (truncated number) (2 ^ 31 - 1))
  | none => if fractionField word ≠ 0 then 0 else if isNegative word then -2 ^ 31 else 2 ^ 31 - 1

theorem toInt_toInt (word : UInt32) : (toInt word).toInt = truncation word := by
  have integral := truncatedMagnitude_eq (magnitudeField word)
  rw [← exponentField_eq, ← fractionField_eq] at integral
  have inRange := units_lt_iff (magnitudeField word) 31
  rw [← Nat.div_lt_iff_lt_mul unitsInOne_pos, ← exponentField_eq] at inRange
  have signed := tdiv_signedUnits word
  generalize units (magnitudeField word) / unitsInOne = quotient at integral inRange signed
  have least : (Int32.ofInt (-2147483648)).toInt = -2 ^ 31 := by decide
  have greatest : (Int32.ofInt 2147483647).toInt = 2 ^ 31 - 1 := by decide
  unfold toInt truncation number?
  by_cases finite : exponentField word = 255
  · have notSmall : ¬ 255 < 158 := by decide
    simp only [finite, true_and, notSmall, if_true, if_false]
    split
    next => rfl
    next => split <;> assumption
  · simp only [finite, false_and, if_false, integral, truncated_div, signed]
    by_cases small : exponentField word < 158
    · have bound := inRange.mpr small
      rw [if_pos small, Int32.toInt_ofInt_of_le] <;> split <;> omega
    · have bound := not_lt.mp (mt inRange.mp small)
      rw [if_neg small]
      split <;> omega

end ToInt

section Integers

theorem truncated_intCast (integer : ℤ) : truncated integer = integer := by
  simp [truncated]

/-- If the magnitude of an integer's word is a natural number, then its number is that with the sign
of the integer. -/
theorem number?_ofInt_of_units_eq {code : Int32} {whole : Nat}
    (divided : units (magnitudeBits code.toInt.natAbs) = whole * unitsInOne) :
    number? (ofInt code) = some ((if code.toInt < 0 then -(whole : ℤ) else whole : ℤ) : ℚ) := by
  have finite := ((number?_eq_some_iff _ _).mp (number?_ofInt code)).1
  refine (number?_eq_intCast_iff _ _).mpr ⟨finite, ?_⟩
  rw [signedUnits, magnitudeField_ofInt, divided]
  simp only [isNegative_ofInt]
  split <;> push_cast <;> ring

/-- The number of an integer's word is an integer, and between the powers of two that bound the
range. -/
theorem exists_integer_of_ofInt (code : Int32) :
    ∃ integer : ℤ, number? (ofInt code) = some (integer : ℚ) ∧
      -2 ^ 31 ≤ integer ∧ integer ≤ 2 ^ 31 := by
  obtain ⟨whole, divided⟩ := unitsInOne_dvd_units_magnitudeBits code.toInt.natAbs
  rw [Nat.mul_comm] at divided
  have inRange : units (magnitudeBits code.toInt.natAbs) ≤ units ((31 + 127) * 2 ^ 23) := by
    apply (nearest_magnitudeBits _).units_le
    rw [units_powerOfTwo]
    exact Nat.mul_le_mul_right _ (natAbs_toInt_le code)
  rw [divided, units_powerOfTwo, Nat.mul_le_mul_right_iff unitsInOne_pos] at inRange
  refine ⟨_, number?_ofInt_of_units_eq divided, ?_⟩
  split <;> omega

/-- An integer that is the number of a word is not rounded. -/
theorem number?_ofInt_of_number? {word : UInt32} {code : Int32}
    (stands : number? word = some (code.toInt : ℚ)) :
    number? (ofInt code) = some (code.toInt : ℚ) := by
  obtain ⟨nearest, ofCode, farther⟩ := isNearest_ofInt code
  rw [ofCode]
  obtain nearer | same | ⟨halfway, -⟩ := farther word _ stands
  · rw [sub_self, abs_zero] at nearer
    exact absurd nearer (abs_nonneg _).not_gt
  · rw [same]
  · rw [sub_self, abs_zero, abs_eq_zero, sub_eq_zero] at halfway
    rw [halfway]

/-- A word whose number is an integer within the range, or the power of two that ends it, is the
word of the integer that it is read as. -/
theorem ofInt_toInt_of_number? {word : UInt32} {integer : ℤ}
    (stands : number? word = some (integer : ℚ)) (nonzero : word ≠ negativeZero)
    (least : -2 ^ 31 ≤ integer) (greatest : integer ≤ 2 ^ 31) : ofInt (toInt word) = word := by
  have read : (toInt word).toInt = max (-2 ^ 31) (min integer (2 ^ 31 - 1)) := by
    rw [toInt_toInt, truncation, stands]
    simp only [truncated_intCast]
  rcases eq_or_lt_of_le greatest with rfl | inside
  · have saturated : toInt word = 2147483647 := Int32.toInt_inj.mp (read.trans (by decide))
    have power : number? (ofInt 2147483647) = some ((2 ^ 31 : ℤ) : ℚ) :=
      (number?_eq_intCast_iff _ _).mpr ⟨by decide, by decide⟩
    rw [saturated]
    exact eq_of_number?_eq power stands (ofInt_ne_negativeZero _) nonzero
  · have exact : (toInt word).toInt = integer := by omega
    rw [← exact] at stands
    exact eq_of_number?_eq (number?_ofInt_of_number? stands) stands (ofInt_ne_negativeZero _)
      nonzero

/-- Integers of at most 24 bits, and the next one, are not rounded. -/
theorem number?_ofInt_of_natAbs_le {code : Int32} (small : code.toInt.natAbs ≤ 2 ^ 24) :
    number? (ofInt code) = some (code.toInt : ℚ) := by
  have whole : units (magnitudeBits code.toInt.natAbs) = code.toInt.natAbs * unitsInOne := by
    rcases Nat.lt_or_eq_of_le small with shorter | power
    · exact units_magnitudeBits_of_lt shorter
    · rw [power]
      decide
  have signed : (if code.toInt < 0 then -(code.toInt.natAbs : ℤ) else code.toInt.natAbs) =
      code.toInt := by
    split <;> omega
  rw [number?_ofInt_of_units_eq whole, signed]

/-- A word of an integer in the range of the codes or of the power of two above it; of the two zeros
only the one without a sign. -/
def IsCodeWord (word : UInt32) : Prop :=
  word ≠ negativeZero ∧
    ∃ integer : ℤ, number? word = some (integer : ℚ) ∧ -2 ^ 31 ≤ integer ∧ integer ≤ 2 ^ 31

theorem isCodeWord_ofInt (code : Int32) : IsCodeWord (ofInt code) :=
  ⟨ofInt_ne_negativeZero code, exists_integer_of_ofInt code⟩

theorem IsCodeWord.ofInt_toInt {word : UInt32} (isCodeWord : IsCodeWord word) :
    ofInt (toInt word) = word := by
  obtain ⟨nonzero, integer, stands, least, greatest⟩ := isCodeWord
  exact ofInt_toInt_of_number? stands nonzero least greatest

/-- The words that come back when they are read as codes are the words of the codes. -/
theorem isCodeWord_iff (word : UInt32) : IsCodeWord word ↔ ∃ code, ofInt code = word := by
  constructor
  · exact fun isCodeWord => ⟨_, isCodeWord.ofInt_toInt⟩
  · rintro ⟨code, rfl⟩
    exact isCodeWord_ofInt code

end Integers

end ActionStream.Binary32
