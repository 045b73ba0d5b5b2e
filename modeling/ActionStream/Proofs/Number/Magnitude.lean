import ActionStream.Number.Binary32
import Mathlib.Algebra.Order.Ring.Int
import Mathlib.Order.Monotone.Basic

/-!
# Magnitudes of single-precision words

The magnitude of a finite word is a number of units of `1 / 2 ^ 149`, the least positive number.
Without their sign bits the words are in the order of their magnitudes, and the distance from one to
the next is a power of two that grows with the exponent.  An integer lies between two words in a
row, so the nearest word is found by comparing with these two alone.
-/

namespace ActionStream.Binary32

/-- The number of units that the number one has. -/
def unitsInOne : Nat := 2 ^ 149

theorem unitsInOne_pos : 0 < unitsInOne :=
  Nat.two_pow_pos 149

/-- The magnitude of a word that has no sign bit, in units.  Words without an exponent lie as
close together as those with the least exponent. -/
def units (bits : Nat) : Nat :=
  if bits / 2 ^ 23 = 0 then bits % 2 ^ 23
  else (2 ^ 23 + bits % 2 ^ 23) * 2 ^ (bits / 2 ^ 23 - 1)

/-- The next word is greater by one unit for each power of two that the exponent counts. -/
theorem units_add_one (bits : Nat) : units (bits + 1) = units bits + 2 ^ (bits / 2 ^ 23 - 1) := by
  unfold units
  by_cases full : bits % 2 ^ 23 + 1 = 2 ^ 23
  · have exponent : (bits + 1) / 2 ^ 23 = bits / 2 ^ 23 + 1 := by omega
    have fraction : (bits + 1) % 2 ^ 23 = 0 := by omega
    rw [exponent, fraction]
    cases lead : bits / 2 ^ 23 with
    | zero => simp; omega
    | succ shift =>
        have doubled : 2 ^ 23 + bits % 2 ^ 23 + 1 = 2 ^ 23 * 2 := by omega
        simp only [Nat.succ_ne_zero, if_false, Nat.add_zero, Nat.add_sub_cancel]
        rw [pow_succ' 2 shift, ← Nat.mul_assoc, ← doubled, Nat.add_one_mul]
  · have exponent : (bits + 1) / 2 ^ 23 = bits / 2 ^ 23 := by omega
    have fraction : (bits + 1) % 2 ^ 23 = bits % 2 ^ 23 + 1 := by omega
    rw [exponent, fraction]
    cases lead : bits / 2 ^ 23 with
    | zero => simp
    | succ shift => simp [← Nat.add_assoc, Nat.add_mul]

theorem strictMono_units : StrictMono units := by
  refine strictMono_nat_of_lt_succ fun bits => ?_
  rw [units_add_one]
  exact Nat.lt_add_of_pos_right (Nat.two_pow_pos _)

/-- An exponent and a significand put together; a significand of 25 bits carries into the
exponent. -/
theorem units_add_significand {exponent significand : Nat} (least : 2 ^ 23 ≤ significand)
    (greatest : significand ≤ 2 ^ 24) :
    units (exponent * 2 ^ 23 + significand) = significand * 2 ^ exponent := by
  unfold units
  rcases Nat.eq_or_lt_of_le greatest with rfl | small
  · have lead : (exponent * 2 ^ 23 + 2 ^ 24) / 2 ^ 23 = exponent + 2 := by omega
    have fraction : (exponent * 2 ^ 23 + 2 ^ 24) % 2 ^ 23 = 0 := by omega
    rw [lead, fraction]
    simp [Nat.pow_succ]
    omega
  · have lead : (exponent * 2 ^ 23 + significand) / 2 ^ 23 = exponent + 1 := by omega
    have fraction : 2 ^ 23 + (exponent * 2 ^ 23 + significand) % 2 ^ 23 = significand := by omega
    rw [lead, if_neg (Nat.succ_ne_zero exponent), fraction, Nat.add_sub_cancel]

/-- The significand of the word nearest to a magnitude: 24 bits, or 25 bits if it has been rounded
up to a power of two. -/
def significand (magnitude : Nat) : Nat :=
  if magnitude.log2 ≤ 23 then magnitude * 2 ^ (23 - magnitude.log2)
  else roundedQuotient magnitude (magnitude.log2 - 23)

theorem magnitudeBits_eq {magnitude : Nat} (positive : magnitude ≠ 0) :
    magnitudeBits magnitude = (magnitude.log2 + 126) * 2 ^ 23 + significand magnitude := by
  rw [magnitudeBits, if_neg positive]
  rfl

/-- A magnitude is rounded down or up to the nearer multiple of a power of two, and from halfway to
the even one. -/
theorem roundedQuotient_cases (magnitude shift : Nat) :
    (roundedQuotient magnitude shift = magnitude / 2 ^ shift ∧
        (2 * (magnitude % 2 ^ shift) < 2 ^ shift ∨
          2 * (magnitude % 2 ^ shift) = 2 ^ shift ∧ magnitude / 2 ^ shift % 2 = 0)) ∨
      (roundedQuotient magnitude shift = magnitude / 2 ^ shift + 1 ∧
        (2 ^ shift < 2 * (magnitude % 2 ^ shift) ∨
          2 * (magnitude % 2 ^ shift) = 2 ^ shift ∧ magnitude / 2 ^ shift % 2 = 1)) := by
  simp only [roundedQuotient, Nat.pow_eq]
  split <;> omega

/-- The quotient that is rounded has 24 bits. -/
theorem quotient_bounds {magnitude shift : Nat} (length : magnitude.log2 = shift + 23) :
    2 ^ 23 ≤ magnitude / 2 ^ shift ∧ magnitude / 2 ^ shift < 2 ^ 24 := by
  have positive : magnitude ≠ 0 := by
    rintro rfl
    simp at length
  rw [Nat.le_div_iff_mul_le (Nat.two_pow_pos shift), Nat.div_lt_iff_lt_mul (Nat.two_pow_pos shift),
    ← Nat.pow_add, ← Nat.pow_add]
  constructor
  · apply (Nat.le_log2 positive).mp
    omega
  · apply (Nat.log2_lt positive).mp
    omega

theorem significand_bounds {magnitude : Nat} (positive : magnitude ≠ 0) :
    2 ^ 23 ≤ significand magnitude ∧ significand magnitude ≤ 2 ^ 24 := by
  unfold significand
  split
  next small =>
    have low := Nat.log2_self_le positive
    have high := @Nat.lt_log2_self magnitude
    have split : 2 ^ 23 = 2 ^ magnitude.log2 * 2 ^ (23 - magnitude.log2) := by
      rw [← Nat.pow_add]
      congr 1
      omega
    have splitNext : 2 ^ 24 = 2 ^ (magnitude.log2 + 1) * 2 ^ (23 - magnitude.log2) := by
      rw [← Nat.pow_add]
      congr 1
      omega
    constructor
    · rw [split]
      exact Nat.mul_le_mul_right _ low
    · rw [splitNext]
      exact Nat.mul_le_mul_right _ high.le
  next large =>
    have length : magnitude.log2 = magnitude.log2 - 23 + 23 := by omega
    obtain ⟨low, high⟩ := quotient_bounds length
    obtain ⟨rounded, -⟩ | ⟨rounded, -⟩ :=
      roundedQuotient_cases magnitude (magnitude.log2 - 23) <;> omega

theorem units_magnitudeBits {magnitude : Nat} (positive : magnitude ≠ 0) :
    units (magnitudeBits magnitude) = significand magnitude * 2 ^ (magnitude.log2 + 126) := by
  obtain ⟨least, greatest⟩ := significand_bounds positive
  rw [magnitudeBits_eq positive, units_add_significand least greatest]

/-- A magnitude of at most 24 bits is the magnitude of a word. -/
theorem units_magnitudeBits_of_lt {magnitude : Nat} (small : magnitude < 2 ^ 24) :
    units (magnitudeBits magnitude) = magnitude * unitsInOne := by
  rcases eq_or_ne magnitude 0 with rfl | positive
  · rfl
  · have short : magnitude.log2 < 24 := (Nat.log2_lt positive).mpr small
    rw [units_magnitudeBits positive, significand, if_pos (Nat.le_of_lt_succ short), Nat.mul_assoc,
      ← Nat.pow_add, unitsInOne]
    congr 2
    omega

/-- The distance of a word without sign bit from a magnitude, in units. -/
def distance (bits magnitude : Nat) : ℤ :=
  |(units bits : ℤ) - (magnitude * unitsInOne : Nat)|

theorem distance_of_le {bits magnitude : Nat} (below : units bits ≤ magnitude * unitsInOne) :
    distance bits magnitude = (magnitude * unitsInOne : Nat) - (units bits : ℤ) := by
  rw [distance, abs_sub_comm, abs_of_nonneg (by omega)]

theorem distance_of_ge {bits magnitude : Nat} (above : magnitude * unitsInOne ≤ units bits) :
    distance bits magnitude = (units bits : ℤ) - (magnitude * unitsInOne : Nat) := by
  rw [distance, abs_of_nonneg (by omega)]

/-- Between two words that are equally far away there are only nearer ones. -/
theorem distance_lt_of_between {first between last magnitude : Nat} (lower : first < between)
    (upper : between < last) (halfway : distance first magnitude = distance last magnitude) :
    distance between magnitude < distance first magnitude := by
  have lowerUnits : units first < units between := strictMono_units lower
  have upperUnits : units between < units last := strictMono_units upper
  simp only [distance, Int.abs_eq_natAbs] at halfway ⊢
  omega

/-- A word is nearest to a magnitude if every other one is farther away, has the same magnitude, or
is as far away while the last bit of the word is zero. -/
def Nearest (bits magnitude : Nat) : Prop :=
  ∀ other, distance bits magnitude < distance other magnitude ∨ units other = units bits ∨
    distance bits magnitude = distance other magnitude ∧ bits % 2 = 0

theorem Nearest.distance_le {bits magnitude : Nat} (nearest : Nearest bits magnitude)
    (other : Nat) : distance bits magnitude ≤ distance other magnitude := by
  obtain nearer | same | ⟨halfway, -⟩ := nearest other
  · exact nearer.le
  · rw [distance, distance, same]
  · exact halfway.le

/-- A magnitude that a word has is not rounded. -/
theorem nearest_of_units_eq {bits magnitude : Nat} (exact : units bits = magnitude * unitsInOne) :
    Nearest bits magnitude := by
  intro other
  rw [distance_of_le exact.le, exact, sub_self, distance, abs_pos, sub_ne_zero, ne_eq, Nat.cast_inj]
  by_cases same : units other = magnitude * unitsInOne
  · exact .inr (.inl same)
  · exact .inl same

/-- The nearest word is not above any word that the magnitude is not above. -/
theorem Nearest.units_le {bits magnitude other : Nat} (nearest : Nearest bits magnitude)
    (below : magnitude * unitsInOne ≤ units other) : units bits ≤ units other := by
  by_contra above
  have farther := distance_of_ge (below.trans (not_le.mp above).le)
  have otherDistance := distance_of_ge below
  obtain nearer | same | ⟨halfway, -⟩ := nearest other <;> omega

/-- Nothing lies between the nearest word and another one that is as far away, so the last bit of
the other one is one. -/
theorem Nearest.odd_of_halfway {bits other magnitude : Nat} (nearest : Nearest bits magnitude)
    (halfway : distance bits magnitude = distance other magnitude)
    (different : units other ≠ units bits) : other % 2 = 1 := by
  have even : bits % 2 = 0 := by
    obtain nearer | same | ⟨-, even⟩ := nearest other <;> omega
  have neighbour : other ≤ bits + 1 ∧ bits ≤ other + 1 := by
    constructor
    · by_contra apart
      exact (nearest.distance_le (bits + 1)).not_gt
        (distance_lt_of_between (Nat.lt_succ_self bits) (not_le.mp apart) halfway)
    · by_contra apart
      have notNearer := nearest.distance_le (other + 1)
      rw [halfway] at notNearer
      exact notNearer.not_gt
        (distance_lt_of_between (Nat.lt_succ_self other) (not_le.mp apart) halfway.symm)
  have apart : other ≠ bits := fun same => different (congrArg units same)
  omega

/-- Of two words in a row with a magnitude between them, the nearer one is the nearest of all. -/
theorem nearest_of_between {bits lower magnitude : Nat}
    (below : units lower ≤ magnitude * unitsInOne)
    (above : magnitude * unitsInOne ≤ units (lower + 1))
    (nearer :
      (bits = lower ∧ (distance lower magnitude < distance (lower + 1) magnitude ∨
        distance lower magnitude = distance (lower + 1) magnitude ∧ bits % 2 = 0)) ∨
      (bits = lower + 1 ∧ (distance (lower + 1) magnitude < distance lower magnitude ∨
        distance lower magnitude = distance (lower + 1) magnitude ∧ bits % 2 = 0))) :
    Nearest bits magnitude := by
  intro other
  have lowerDistance := distance_of_le below
  have upperDistance := distance_of_ge above
  rcases Nat.lt_or_ge lower other with higher | notHigher
  · have upper : units (lower + 1) ≤ units other := strictMono_units.monotone higher
    have otherDistance := distance_of_ge (above.trans upper)
    obtain ⟨rfl, nearer⟩ | ⟨rfl, nearer⟩ := nearer <;> omega
  · have under : units other ≤ units lower := strictMono_units.monotone notHigher
    have otherDistance := distance_of_le (under.trans below)
    obtain ⟨rfl, nearer⟩ | ⟨rfl, nearer⟩ := nearer <;> omega

section Rounding

variable {magnitude shift : Nat}

/-- The word to which a magnitude of `shift + 24` bits is rounded down. -/
def lowerBits (magnitude shift : Nat) : Nat :=
  (shift + 149) * 2 ^ 23 + magnitude / 2 ^ shift

/-- It lies below the magnitude by the remainder. -/
theorem units_lowerBits_add (length : magnitude.log2 = shift + 23) :
    units (lowerBits magnitude shift) + magnitude % 2 ^ shift * unitsInOne =
      magnitude * unitsInOne := by
  obtain ⟨low, high⟩ := quotient_bounds length
  rw [lowerBits, units_add_significand low high.le, Nat.pow_add, ← unitsInOne, ← Nat.mul_assoc,
    ← Nat.add_mul, Nat.div_add_mod']

/-- The next word lies above the magnitude by what is missing to the next quotient. -/
theorem units_lowerBits_add_one (length : magnitude.log2 = shift + 23) :
    magnitude * unitsInOne + (2 ^ shift - magnitude % 2 ^ shift) * unitsInOne =
      units (lowerBits magnitude shift + 1) := by
  obtain ⟨low, high⟩ := quotient_bounds length
  have excess : magnitude % 2 ^ shift < 2 ^ shift := Nat.mod_lt _ (Nat.two_pow_pos shift)
  have parts := Nat.div_add_mod' magnitude (2 ^ shift)
  have next : (magnitude / 2 ^ shift + 1) * 2 ^ shift =
      magnitude + (2 ^ shift - magnitude % 2 ^ shift) := by
    rw [Nat.add_one_mul]
    omega
  rw [lowerBits, Nat.add_assoc, units_add_significand (by omega) (by omega), Nat.pow_add,
    ← unitsInOne, ← Nat.mul_assoc, next, Nat.add_mul]

theorem distance_lowerBits (length : magnitude.log2 = shift + 23) :
    distance (lowerBits magnitude shift) magnitude =
      (magnitude % 2 ^ shift * unitsInOne : Nat) := by
  have parts := units_lowerBits_add length
  rw [distance_of_le (Nat.le.intro parts), ← parts, Nat.cast_add, add_sub_cancel_left]

theorem distance_lowerBits_add_one (length : magnitude.log2 = shift + 23) :
    distance (lowerBits magnitude shift + 1) magnitude =
      ((2 ^ shift - magnitude % 2 ^ shift) * unitsInOne : Nat) := by
  have parts := units_lowerBits_add_one length
  rw [distance_of_ge (Nat.le.intro parts), ← parts, Nat.cast_add, add_sub_cancel_left]

/-- How a magnitude of more than 24 bits is rounded is decided by its distances from the two words
around it. -/
theorem nearest_magnitudeBits_of_log2_eq (long : 0 < shift)
    (length : magnitude.log2 = shift + 23) : Nearest (magnitudeBits magnitude) magnitude := by
  have positive : magnitude ≠ 0 := by
    rintro rfl
    simp at length
  have rounded : magnitudeBits magnitude =
      (shift + 149) * 2 ^ 23 + roundedQuotient magnitude shift := by
    rw [magnitudeBits_eq positive, significand, if_neg (by omega), length, Nat.add_sub_cancel]
  have parity : lowerBits magnitude shift % 2 = magnitude / 2 ^ shift % 2 := by
    rw [lowerBits]
    omega
  have below : units (lowerBits magnitude shift) ≤ magnitude * unitsInOne :=
    Nat.le.intro (units_lowerBits_add length)
  have above : magnitude * unitsInOne ≤ units (lowerBits magnitude shift + 1) :=
    Nat.le.intro (units_lowerBits_add_one length)
  refine nearest_of_between below above ?_
  rw [distance_lowerBits length, distance_lowerBits_add_one length, Nat.cast_lt, Nat.cast_lt,
    Nat.cast_inj, Nat.mul_lt_mul_right unitsInOne_pos, Nat.mul_lt_mul_right unitsInOne_pos,
    Nat.mul_left_inj unitsInOne_pos.ne']
  obtain ⟨down, nearer⟩ | ⟨up, nearer⟩ := roundedQuotient_cases magnitude shift
  · rw [down, ← lowerBits] at rounded
    exact .inl ⟨rounded, by omega⟩
  · rw [up, ← Nat.add_assoc, ← lowerBits] at rounded
    exact .inr ⟨rounded, by omega⟩

end Rounding

theorem nearest_magnitudeBits (magnitude : Nat) : Nearest (magnitudeBits magnitude) magnitude := by
  rcases Nat.lt_or_ge magnitude (2 ^ 24) with small | large
  · exact nearest_of_units_eq (units_magnitudeBits_of_lt small)
  · have positive : magnitude ≠ 0 := by omega
    have long : 24 ≤ magnitude.log2 := (Nat.le_log2 positive).mpr large
    exact nearest_magnitudeBits_of_log2_eq (by omega : 0 < magnitude.log2 - 23) (by omega)

/-- The word of an integer stands for an integer. -/
theorem unitsInOne_dvd_units_magnitudeBits (magnitude : Nat) :
    unitsInOne ∣ units (magnitudeBits magnitude) := by
  rcases Nat.lt_or_ge magnitude (2 ^ 24) with small | large
  · rw [units_magnitudeBits_of_lt small]
    exact Nat.dvd_mul_left ..
  · have positive : magnitude ≠ 0 := by omega
    have long : 24 ≤ magnitude.log2 := (Nat.le_log2 positive).mpr large
    rw [units_magnitudeBits positive]
    exact Nat.dvd_mul_left_of_dvd (Nat.pow_dvd_pow 2 (by omega)) _

end ActionStream.Binary32
