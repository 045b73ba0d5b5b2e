import ActionStream.Json.Lexeme
import ActionStream.Json.Literal
import Mathlib.Data.List.TakeDrop

/-!
# Integers in a JSON text

The digits of a number begin with a zero only if the number is zero, so they make up one numeral.
A numeral is read up to its end if what follows cannot prolong it, and the integer that it stands
for is the one that was written.
-/

namespace ActionStream.Json

theorem all_isDigit_toDigits (number : Nat) : (Nat.toDigits 10 number).all Char.isDigit = true := by
  rw [List.all_eq_true]
  intro digit member
  exact Nat.isDigit_of_mem_toDigits (by decide) (by decide) member

/-- Only zero has a leading zero. -/
theorem eq_zero_of_toDigits {number : Nat} {rest : List Char}
    (digits : Nat.toDigits 10 number = '0' :: rest) : number = 0 := by
  induction number using Nat.strongRecOn generalizing rest with
  | ind number ih =>
    by_cases small : number < 10
    · rw [Nat.toDigits_of_lt_base small] at digits
      exact Nat.digitChar_eq_zero.mp (List.cons.inj digits).1
    · have large : 10 ≤ number := Nat.le_of_not_lt small
      rw [Nat.toDigits_of_base_le (by decide) large] at digits
      cases front : Nat.toDigits 10 (number / 10) with
      | nil => exact absurd front Nat.toDigits_ne_nil
      | cons first others =>
          rw [front, List.cons_append] at digits
          obtain rfl := (List.cons.inj digits).1
          have isZero : number / 10 = 0 := ih _ (by omega) front
          omega

theorem digitsValue_toDigits (number : Nat) : digitsValue (Nat.toDigits 10 number) = number := by
  have folds : digitsValue (Nat.toDigits 10 number) =
      Nat.ofDigitChars 10 (Nat.toDigits 10 number) 0 := by
    rw [Nat.ofDigitChars_eq_foldl, digitsValue]
    simp only [Nat.mul_comm]
    rfl
  rw [folds, Nat.ofDigitChars_ten_toDigits]

/-- The spelling of an integer that is not negative. -/
theorem toList_toString_of_nonneg {value : Int} (nonnegative : 0 ≤ value) :
    (toString value).toList = Nat.toDigits 10 value.toNat := by
  rw [Int.toString_eq_repr, Int.repr_eq_if, if_pos nonnegative, Nat.toList_repr]

theorem toList_toString_of_neg {value : Int} (negative : value < 0) :
    (toString value).toList = '-' :: Nat.toDigits 10 (-value).toNat := by
  rw [Int.toString_eq_repr, Int.repr_eq_if, if_neg (Int.not_le.mpr negative), String.toList_append,
    Nat.toList_repr]
  rfl

/-- No digits begin with a sign. -/
theorem splitSign_toDigits (number : Nat) :
    splitSign (Nat.toDigits 10 number) = (false, Nat.toDigits 10 number) := by
  cases digits : Nat.toDigits 10 number with
  | nil => rfl
  | cons first rest =>
      have allDigits := all_isDigit_toDigits number
      rw [digits, List.all_cons, Bool.and_eq_true] at allDigits
      rw [splitSign]
      rintro others ⟨⟩
      exact absurd allDigits.1 (by decide)

/-- The spelling of an integer stands for it. -/
theorem integer?_toString (value : Int) : integer? (toString value) = some value := by
  rcases Int.lt_or_le value 0 with negative | nonnegative
  · have positive : (-value).toNat ≠ 0 := by omega
    have restored : -((-value).toNat : Int) = value := by omega
    simp only [integer?, toList_toString_of_neg negative, splitSign, all_isDigit_toDigits,
      digitsValue_toDigits, positive, restored, if_true, if_false]
  · have restored : (value.toNat : Int) = value := Int.toNat_of_nonneg nonnegative
    simp only [integer?, toList_toString_of_nonneg nonnegative, splitSign_toDigits,
      all_isDigit_toDigits, digitsValue_toDigits, restored, if_true, Bool.false_eq_true, if_false]

/-- No character at the start belongs to a number that ends before it. -/
def EndsNumber (rest : List Char) : Prop :=
  ∀ first ∈ rest.head?, first.isDigit = false ∧ first ≠ '.' ∧ first ≠ 'e' ∧ first ≠ 'E'

theorem endsNumber_nil : EndsNumber [] := by
  intro first member
  cases member

theorem endsNumber_cons {first : Char} (rest : List Char)
    (other : first.isDigit = false ∧ first ≠ '.' ∧ first ≠ 'e' ∧ first ≠ 'E') :
    EndsNumber (first :: rest) := by
  intro found member
  cases member
  exact other

namespace Lexeme

variable {rest : List Char}

theorem digits?_toDigits (number : Nat) (ends : EndsNumber rest) :
    digits? (Nat.toDigits 10 number ++ rest) = some (Nat.toDigits 10 number, rest) := by
  have allDigits := List.all_eq_true.mp (all_isDigit_toDigits number)
  have stops : rest.takeWhile Char.isDigit = [] ∧ rest.dropWhile Char.isDigit = rest := by
    cases rest with
    | nil => exact ⟨rfl, rfl⟩
    | cons first rest => simp [(ends first rfl).1]
  have split : (Nat.toDigits 10 number ++ rest).span Char.isDigit =
      (Nat.toDigits 10 number, rest) := by
    rw [List.span_eq_takeWhile_dropWhile, List.takeWhile_append_of_pos allDigits,
      List.dropWhile_append_of_pos allDigits, stops.1, stops.2, List.append_nil]
  rw [digits?, split]
  cases digits : Nat.toDigits 10 number with
  | nil => exact absurd digits Nat.toDigits_ne_nil
  | cons first others => rfl

theorem whole?_toDigits (number : Nat) (ends : EndsNumber rest) :
    whole? (Nat.toDigits 10 number ++ rest) = some (Nat.toDigits 10 number, rest) := by
  rw [whole?, digits?_toDigits number ends]
  split
  next second others _ leading =>
    have digits : Nat.toDigits 10 number = '0' :: second :: others := by
      simp only [Option.some.injEq, Prod.mk.injEq] at leading
      exact leading.1
    rw [eq_zero_of_toDigits digits] at digits
    cases digits
  next => rfl

theorem fraction?_of_ends (ends : EndsNumber rest) : fraction? rest = some ([], rest) := by
  cases rest with
  | nil => rfl
  | cons first rest =>
      rw [fraction?]
      rintro others ⟨⟩
      exact (ends '.' rfl).2.1 rfl

theorem exponent?_of_ends (ends : EndsNumber rest) : exponent? rest = some ([], rest) := by
  cases rest with
  | nil => rfl
  | cons first rest =>
      have other : ¬ (first = 'e' ∨ first = 'E') := not_or.mpr (ends first rfl).2.2
      rw [exponent?, if_neg other]

/-- The digits of a number are one numeral if what follows does not prolong it. -/
theorem signed_toDigits (sign : List Char) (number : Nat) (ends : EndsNumber rest) :
    signed sign (Nat.toDigits 10 number ++ rest) =
      (.number (String.ofList (sign ++ Nat.toDigits 10 number)), rest) := by
  simp [signed, unsigned?, whole?_toDigits number ends, fraction?_of_ends ends,
    exponent?_of_ends ends]

/-- A lexeme that begins with a digit is a number. -/
theorem next_of_isDigit {first : Char} (isDigit : first.isDigit = true) :
    next first rest = signed [] (first :: rest) := by
  rw [next] <;> intros <;> subst_vars <;> exact absurd isDigit (by decide)

end Lexeme

end ActionStream.Json
