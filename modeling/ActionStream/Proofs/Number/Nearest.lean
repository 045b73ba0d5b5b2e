import ActionStream.Proofs.Number.Magnitude
import Mathlib.Data.Rat.Cast.Order
import Mathlib.Tactic.Linarith
import Mathlib.Tactic.Positivity
import Mathlib.Tactic.Ring

/-!
# Integers as nearest numbers

A finite word stands for a rational number, which is its magnitude with a sign.  The word of an
integer stands for the nearest of all numbers, and is the only one that does.  For the numbers on
the side of the integer this is a fact about magnitudes, and no number on the other side is nearer
than zero.
-/

namespace ActionStream.Binary32

section Words

/-- The exponent and the fraction of a word. -/
def magnitudeField (word : UInt32) : Nat :=
  word.toNat % 2 ^ 31

/-- The number of a word in units, with its sign. -/
def signedUnits (word : UInt32) : ℤ :=
  if isNegative word then -(units (magnitudeField word) : ℤ) else units (magnitudeField word)

/-- The number that a word stands for, if it is finite. -/
def number? (word : UInt32) : Option ℚ :=
  if exponentField word = 255 then none else some ((signedUnits word : ℚ) / unitsInOne)

theorem unitsInOne_cast_pos : (0 : ℚ) < unitsInOne :=
  Nat.cast_pos.mpr unitsInOne_pos

theorem natAbs_signedUnits (word : UInt32) :
    (signedUnits word).natAbs = units (magnitudeField word) := by
  rw [signedUnits]
  split <;> simp

theorem exponentField_eq (word : UInt32) : exponentField word = magnitudeField word / 2 ^ 23 := by
  have bound := word.toNat_lt
  simp only [exponentField, magnitudeField, Nat.pow_eq]
  omega

theorem fractionField_eq (word : UInt32) : fractionField word = magnitudeField word % 2 ^ 23 := by
  simp only [fractionField, magnitudeField, Nat.pow_eq]
  omega

/-- The last bit of the fraction is that of the word. -/
theorem fractionField_mod_two (word : UInt32) :
    fractionField word % 2 = magnitudeField word % 2 := by
  rw [fractionField_eq]
  omega

theorem isNegative_iff (word : UInt32) : isNegative word = true ↔ 2 ^ 31 ≤ word.toNat := by
  simp [isNegative]

/-- The sign and the magnitude of a word determine it. -/
theorem eq_of_fields {first second : UInt32} (sameSign : isNegative first = isNegative second)
    (sameMagnitude : magnitudeField first = magnitudeField second) : first = second := by
  have firstBound := first.toNat_lt
  have secondBound := second.toNat_lt
  rw [Bool.eq_iff_iff, isNegative_iff, isNegative_iff] at sameSign
  unfold magnitudeField at sameMagnitude
  apply UInt32.toNat_inj.mp
  omega

/-- The word of the zero that has a negative sign. -/
def negativeZero : UInt32 := 0x80000000

/-- A finite word stands for its units, of which one has `unitsInOne`. -/
theorem number?_eq_some_iff (word : UInt32) (number : ℚ) :
    number? word = some number ↔
      exponentField word ≠ 255 ∧ number = (signedUnits word : ℚ) / unitsInOne := by
  rw [number?]
  split
  next infinite => simp [infinite]
  next finite => rw [Option.some_inj, eq_comm, and_iff_right finite]

/-- A word stands for an integer if its units make up that many ones. -/
theorem number?_eq_intCast_iff (word : UInt32) (integer : ℤ) :
    number? word = some (integer : ℚ) ↔
      exponentField word ≠ 255 ∧ signedUnits word = integer * unitsInOne := by
  rw [number?_eq_some_iff, eq_div_iff unitsInOne_cast_pos.ne', @eq_comm ℚ]
  exact and_congr_right fun _ => by exact_mod_cast Iff.rfl

theorem eq_negativeZero {word : UInt32} (negative : isNegative word = true)
    (zero : units (magnitudeField word) = 0) : word = negativeZero :=
  eq_of_fields negative (strictMono_units.injective zero)

/-- Apart from the negative zero, the words with a sign are those of the negative numbers. -/
theorem isNegative_iff_of_ne {word : UInt32} (nonzero : word ≠ negativeZero) :
    isNegative word = true ↔ signedUnits word < 0 := by
  rw [signedUnits]
  split
  next negative =>
    have positive := mt (eq_negativeZero negative) nonzero
    refine iff_of_true negative ?_
    omega
  next nonnegative =>
    refine iff_of_false nonnegative ?_
    omega

/-- Apart from the negative zero, a number has only one word. -/
theorem eq_of_number?_eq {first second : UInt32} {number : ℚ}
    (firstStands : number? first = some number) (secondStands : number? second = some number)
    (firstNonzero : first ≠ negativeZero) (secondNonzero : second ≠ negativeZero) :
    first = second := by
  have firstUnits := ((number?_eq_some_iff first number).mp firstStands).2
  have secondUnits := ((number?_eq_some_iff second number).mp secondStands).2
  have sameUnits : signedUnits first = signedUnits second := by
    rwa [firstUnits, div_left_inj' unitsInOne_cast_pos.ne', Int.cast_inj] at secondUnits
  apply eq_of_fields
  · rw [Bool.eq_iff_iff, isNegative_iff_of_ne firstNonzero, isNegative_iff_of_ne secondNonzero,
      sameUnits]
  · apply strictMono_units.injective
    rw [← natAbs_signedUnits, ← natAbs_signedUnits, sameUnits]

end Words

section OfInt

theorem magnitudeBits_le {magnitude : Nat} (bound : magnitude ≤ 2 ^ 31) :
    magnitudeBits magnitude ≤ 159 * 2 ^ 23 := by
  rcases eq_or_ne magnitude 0 with rfl | positive
  · exact Nat.zero_le _
  · have short : magnitude.log2 < 32 := (Nat.log2_lt positive).mpr (by omega)
    have greatest := (significand_bounds positive).2
    rw [magnitudeBits_eq positive]
    omega

theorem natAbs_toInt_le (code : Int32) : code.toInt.natAbs ≤ 2 ^ 31 := by
  have least := code.le_toInt
  have greatest := code.toInt_lt
  omega

theorem toNat_ofInt (code : Int32) :
    (ofInt code).toNat =
      (if code.toInt < 0 then 2 ^ 31 else 0) + magnitudeBits code.toInt.natAbs := by
  have bound := magnitudeBits_le (natAbs_toInt_le code)
  have below : magnitudeBits code.toInt.natAbs < 2 ^ 31 := by omega
  simp only [ofInt, Nat.pow_eq]
  split
  · exact UInt32.toNat_ofNat_of_lt' (Nat.add_lt_add_left below _)
  · rw [Nat.zero_add]
    exact UInt32.toNat_ofNat_of_lt' (below.trans (by decide))

theorem isNegative_ofInt (code : Int32) : isNegative (ofInt code) = true ↔ code.toInt < 0 := by
  have bound := magnitudeBits_le (natAbs_toInt_le code)
  rw [isNegative_iff, toNat_ofInt]
  split <;> omega

theorem magnitudeField_ofInt (code : Int32) :
    magnitudeField (ofInt code) = magnitudeBits code.toInt.natAbs := by
  have bound := magnitudeBits_le (natAbs_toInt_le code)
  rw [magnitudeField, toNat_ofInt]
  split <;> omega

theorem ofInt_ne_negativeZero (code : Int32) : ofInt code ≠ negativeZero := by
  intro same
  have negative := isNegative_ofInt code
  have magnitude := magnitudeField_ofInt code
  rw [same] at negative magnitude
  have below : code.toInt < 0 := negative.mp (by decide)
  have positive : code.toInt.natAbs ≠ 0 := by omega
  rw [magnitudeBits_eq positive] at magnitude
  have empty : magnitudeField negativeZero = 0 := by decide
  omega

theorem number?_ofInt (code : Int32) :
    number? (ofInt code) = some ((signedUnits (ofInt code) : ℚ) / unitsInOne) := by
  have bound := magnitudeBits_le (natAbs_toInt_le code)
  have finite : exponentField (ofInt code) ≠ 255 := by
    rw [exponentField_eq, magnitudeField_ofInt]
    omega
  rw [number?, if_neg finite]

end OfInt

section Nearest

variable {word : UInt32} {integer : ℤ}

/-- On the side of an integer, the distance from it is that of the magnitudes. -/
theorem abs_signedUnits_sub_of_iff (sameSide : isNegative word = true ↔ integer < 0) :
    |signedUnits word - integer * unitsInOne| =
      distance (magnitudeField word) integer.natAbs := by
  rw [signedUnits, distance, Nat.cast_mul]
  rcases Int.lt_or_le integer 0 with negative | nonnegative
  · rw [if_pos (sameSide.mpr negative), Int.ofNat_natAbs_of_nonpos negative.le, ← abs_neg]
    congr 1
    ring
  · rw [if_neg (fun isNegative => nonnegative.not_gt (sameSide.mp isNegative)),
      Int.natAbs_of_nonneg nonnegative]

/-- From the other side the magnitudes add up. -/
theorem abs_signedUnits_sub_of_not_iff (otherSide : ¬ (isNegative word = true ↔ integer < 0)) :
    |signedUnits word - integer * unitsInOne| =
      units (magnitudeField word) + distance 0 integer.natAbs := by
  have fromZero : distance 0 integer.natAbs = integer.natAbs * unitsInOne := by
    rw [distance_of_le (Nat.zero_le _), Nat.cast_mul]
    exact sub_zero _
  have positive : 0 ≤ (units (magnitudeField word) : ℤ) + integer.natAbs * unitsInOne := by
    positivity
  rw [signedUnits, fromZero]
  rcases Int.lt_or_le integer 0 with negative | nonnegative
  · rw [Int.ofNat_natAbs_of_nonpos negative.le] at positive ⊢
    rw [if_neg ((not_iff.mp otherSide).mpr negative), abs_of_nonneg] <;> linarith
  · have isNegative : isNegative word = true := by
      by_contra notNegative
      exact nonnegative.not_gt ((not_iff.mp otherSide).mp notNegative)
    rw [Int.natAbs_of_nonneg nonnegative] at positive ⊢
    rw [if_pos isNegative, ← abs_neg, abs_of_nonneg] <;> linarith

theorem signedUnits_eq_of_units_eq {code : Int32}
    (sameSide : isNegative word = true ↔ code.toInt < 0)
    (sameUnits : units (magnitudeField word) = units (magnitudeBits code.toInt.natAbs)) :
    signedUnits word = signedUnits (ofInt code) := by
  rw [signedUnits, signedUnits, magnitudeField_ofInt, sameUnits]
  simp only [sameSide, isNegative_ofInt]

theorem signedUnits_eq_of_units_zero {code : Int32}
    (zero : units (magnitudeField word) = 0)
    (codeZero : units (magnitudeBits code.toInt.natAbs) = 0) :
    signedUnits word = signedUnits (ofInt code) := by
  rw [← natAbs_signedUnits, Int.natAbs_eq_zero] at zero
  rw [← magnitudeField_ofInt, ← natAbs_signedUnits, Int.natAbs_eq_zero] at codeZero
  rw [zero, codeZero]

/-- Distances of numbers, by their units. -/
theorem abs_div_unitsInOne_sub (count : ℤ) :
    |(count : ℚ) / unitsInOne - integer| = (|count - integer * unitsInOne| : ℤ) / unitsInOne := by
  have quotient : (count : ℚ) / unitsInOne - integer =
      (count - integer * unitsInOne : ℤ) / unitsInOne := by
    rw [Int.cast_sub, Int.cast_mul, Int.cast_natCast, sub_div,
      mul_div_cancel_right₀ _ unitsInOne_cast_pos.ne']
  rw [quotient, abs_div, abs_of_pos unitsInOne_cast_pos, Int.cast_abs]

/-- In units, the word of an integer is nearest to it. -/
theorem signedUnits_nearest (code : Int32) (other : UInt32) :
    |signedUnits (ofInt code) - code.toInt * unitsInOne| <
        |signedUnits other - code.toInt * unitsInOne| ∨
      signedUnits other = signedUnits (ofInt code) ∨
      |signedUnits (ofInt code) - code.toInt * unitsInOne| =
          |signedUnits other - code.toInt * unitsInOne| ∧
        magnitudeField (ofInt code) % 2 = 0 := by
  rw [abs_signedUnits_sub_of_iff (isNegative_ofInt code), magnitudeField_ofInt]
  have nearest := nearest_magnitudeBits code.toInt.natAbs
  by_cases sameSide : isNegative other = true ↔ code.toInt < 0
  · rw [abs_signedUnits_sub_of_iff sameSide]
    exact (nearest (magnitudeField other)).imp_right
      (.imp_left (signedUnits_eq_of_units_eq sameSide))
  · rw [abs_signedUnits_sub_of_not_iff sameSide]
    -- On the other side nothing is nearer than zero is.
    have notFarther := nearest.distance_le 0
    rcases Nat.eq_zero_or_pos (units (magnitudeField other)) with none | some
    · rcases nearest 0 with nearer | zero | ⟨halfway, even⟩
      · exact .inl (by omega)
      · exact .inr (.inl (signedUnits_eq_of_units_zero none zero.symm))
      · exact .inr (.inr ⟨by omega, even⟩)
    · exact .inl (by omega)

/-- If the number of a word is as far away from an integer as that of the integer's word but is not
the same, then the last bit of the word is one. -/
theorem odd_of_halfway {code : Int32} {other : UInt32}
    (halfway : |signedUnits (ofInt code) - code.toInt * unitsInOne| =
      |signedUnits other - code.toInt * unitsInOne|)
    (different : signedUnits other ≠ signedUnits (ofInt code)) :
    magnitudeField other % 2 = 1 := by
  rw [abs_signedUnits_sub_of_iff (isNegative_ofInt code), magnitudeField_ofInt] at halfway
  have nearest := nearest_magnitudeBits code.toInt.natAbs
  by_cases sameSide : isNegative other = true ↔ code.toInt < 0
  · rw [abs_signedUnits_sub_of_iff sameSide] at halfway
    exact nearest.odd_of_halfway halfway (mt (signedUnits_eq_of_units_eq sameSide) different)
  · rw [abs_signedUnits_sub_of_not_iff sameSide] at halfway
    have notFarther := nearest.distance_le 0
    have none : units (magnitudeField other) = 0 := by omega
    have apart : units 0 ≠ units (magnitudeBits code.toInt.natAbs) := fun zero =>
      different (signedUnits_eq_of_units_zero none zero.symm)
    exact absurd (nearest.odd_of_halfway (by omega) apart) (by decide)

/-- A finite word is nearest to an integer if every other number is farther away, or as far away
while the last bit of the fraction of the word is zero. -/
def IsNearest (word : UInt32) (integer : ℤ) : Prop :=
  ∃ nearest, number? word = some nearest ∧ ∀ other number, number? other = some number →
    |nearest - integer| < |number - integer| ∨ number = nearest ∨
      |nearest - integer| = |number - integer| ∧ fractionField word % 2 = 0

/-- The word of an integer is nearest to it. -/
theorem isNearest_ofInt (code : Int32) : IsNearest (ofInt code) code.toInt := by
  refine ⟨_, number?_ofInt code, fun other number stands => ?_⟩
  obtain ⟨-, rfl⟩ := (number?_eq_some_iff _ _).mp stands
  rw [fractionField_mod_two, abs_div_unitsInOne_sub, abs_div_unitsInOne_sub,
    div_lt_div_iff_of_pos_right unitsInOne_cast_pos, div_left_inj' unitsInOne_cast_pos.ne',
    div_left_inj' unitsInOne_cast_pos.ne', Int.cast_lt, Int.cast_inj, Int.cast_inj]
  exact signedUnits_nearest code other

/-- No other number is nearest to the integer. -/
theorem IsNearest.number?_eq {code : Int32} (isNearest : IsNearest word code.toInt) :
    number? word = number? (ofInt code) := by
  obtain ⟨number, stands, farther⟩ := isNearest
  obtain ⟨ofCode, codeStands, codeFarther⟩ := isNearest_ofInt code
  rw [stands, codeStands, Option.some_inj]
  by_contra different
  have notFarther : |ofCode - code.toInt| ≤ |number - code.toInt| := by
    obtain nearer | same | ⟨halfway, -⟩ := codeFarther _ _ stands
    · exact nearer.le
    · exact absurd same different
    · exact halfway.le
  obtain nearer | same | ⟨halfway, even⟩ := farther _ _ codeStands
  · exact notFarther.not_gt nearer
  · exact different same.symm
  · obtain ⟨-, rfl⟩ := (number?_eq_some_iff _ _).mp stands
    obtain ⟨-, rfl⟩ := (number?_eq_some_iff _ _).mp codeStands
    rw [abs_div_unitsInOne_sub, abs_div_unitsInOne_sub, div_left_inj' unitsInOne_cast_pos.ne',
      Int.cast_inj] at halfway
    rw [div_left_inj' unitsInOne_cast_pos.ne', Int.cast_inj] at different
    rw [fractionField_mod_two, odd_of_halfway halfway.symm different] at even
    cases even

/-- The word of an integer is the only one that is nearest to it, apart from the negative zero. -/
theorem ofInt_eq_iff (code : Int32) (word : UInt32) :
    ofInt code = word ↔ word ≠ negativeZero ∧ IsNearest word code.toInt := by
  constructor
  · rintro rfl
    exact ⟨ofInt_ne_negativeZero code, isNearest_ofInt code⟩
  · rintro ⟨nonzero, isNearest⟩
    have stands := number?_ofInt code
    exact eq_of_number?_eq stands (isNearest.number?_eq.trans stands) (ofInt_ne_negativeZero code)
      nonzero

end Nearest

end ActionStream.Binary32
