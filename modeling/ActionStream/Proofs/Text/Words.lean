import ActionStream.Listing
import ActionStream.Proofs.Json.Numeral
import ActionStream.Proofs.Text.Quoting

/-!
# Words in a listing

Numbers are shown in a listing as words: letters, digits and a few marks, but no comma, quotation
mark, blank or line end.  This holds of naturals, integers, padded hexadecimal numbers and of the
shortest decimals of doubles, in positional and in scientific notation.
-/

namespace ActionStream

section Words

/-- The characters that numbers, indices, properties and the fixed operands are shown with. -/
def isWordCharacter (character : Char) : Bool :=
  character.isAlphanum || ['_', ':', '-', '.'].contains character

/-- A text of word characters only. -/
def IsWord (text : String) : Prop :=
  ∀ character ∈ text.toList, isWordCharacter character = true

instance (text : String) : Decidable (IsWord text) :=
  decidable_of_iff (text.toList.all isWordCharacter = true) List.all_eq_true

theorem isWordCharacter_of_isAlphanum {character : Char} (alphanumeric : character.isAlphanum) :
    isWordCharacter character = true := by
  simp [isWordCharacter, alphanumeric]

theorem isWordCharacter_of_isDigit {character : Char} (isDigit : character.isDigit = true) :
    isWordCharacter character = true :=
  isWordCharacter_of_isAlphanum (by simp [Char.isAlphanum, isDigit])

theorem IsWord.append {first second : String} (firstWord : IsWord first)
    (secondWord : IsWord second) : IsWord (first ++ second) := by
  rw [IsWord, String.toList_append]
  exact List.forall_mem_append.mpr ⟨firstWord, secondWord⟩

theorem isWord_of_isDigit {digits : List Char}
    (allDigits : ∀ digit ∈ digits, digit.isDigit = true) : IsWord (String.ofList digits) := by
  intro digit member
  rw [String.toList_ofList] at member
  exact isWordCharacter_of_isDigit (allDigits digit member)

theorem toList_toString_natural (number : Nat) :
    (toString number).toList = Nat.toDigits 10 number := by
  rw [Nat.toString_eq_repr, Nat.toList_repr]

theorem isWord_natural (number : Nat) : IsWord (toString number) := by
  intro digit member
  rw [toList_toString_natural] at member
  exact isWordCharacter_of_isDigit (Nat.isDigit_of_mem_toDigits (by decide) (by decide) member)

/-- An integer is spelled with digits and, in front, a sign. -/
theorem sign_or_isDigit_of_mem_integer (value : Int) :
    ∀ character ∈ (toString value).toList, character = '-' ∨ character.isDigit = true := by
  intro character member
  rcases Int.lt_or_le value 0 with negative | nonnegative
  · rw [Json.toList_toString_of_neg negative, List.mem_cons] at member
    exact member.imp_right (Nat.isDigit_of_mem_toDigits (by decide) (by decide))
  · rw [Json.toList_toString_of_nonneg nonnegative] at member
    exact .inr (Nat.isDigit_of_mem_toDigits (by decide) (by decide) member)

theorem isWord_integer (value : Int) : IsWord (toString value) := by
  intro character member
  rcases sign_or_isDigit_of_mem_integer value character member with rfl | isDigit
  · rfl
  · exact isWordCharacter_of_isDigit isDigit

theorem isWord_hexPadded (letterCase : Text.LetterCase) (width number : Nat) :
    IsWord (Text.hexPadded letterCase width number) :=
  fun digit member =>
    isWordCharacter_of_isAlphanum
      (Text.isAlphanum_of_mem_hexPadded letterCase width number digit member)

end Words

section Doubles

namespace Decimal

theorem isDigit_of_mem_shortest (tie : DecimalTie) (number : Binary64) :
    ∀ digit ∈ (shortest tie number).digits, digit.isDigit = true := by
  intro digit member
  rw [shortest, List.mem_reverse] at member
  have kept := List.mem_reverse.mp (List.dropWhile_subset _ member)
  exact Nat.isDigit_of_mem_toDigits (by decide) (by decide) kept

variable {decimal : Decimal}

theorem isDigit_of_mem_replicate_zero (count : Nat) :
    ∀ digit ∈ List.replicate count '0', digit.isDigit = true := by
  intro digit member
  rw [List.eq_of_mem_replicate member]
  rfl

theorem isWord_plain (allDigits : ∀ digit ∈ decimal.digits, digit.isDigit = true) :
    IsWord decimal.plain := by
  rw [plain]
  split_ifs
  · exact .append (by decide) (isWord_of_isDigit
      (List.forall_mem_append.mpr ⟨isDigit_of_mem_replicate_zero _, allDigits⟩))
  · rw [List.splitAt_eq]
    intro character member
    simp only [String.toList_ofList, List.mem_append, List.mem_cons] at member
    rcases member with inWhole | rfl | inFraction
    · exact isWordCharacter_of_isDigit (allDigits character (List.mem_of_mem_take inWhole))
    · rfl
    · exact isWordCharacter_of_isDigit (allDigits character (List.mem_of_mem_drop inFraction))
  · rw [String.ofList_append]
    exact .append (isWord_of_isDigit
      (List.forall_mem_append.mpr ⟨allDigits, isDigit_of_mem_replicate_zero _⟩)) (by decide)

/-- The mantissa of the scientific form has a point behind its first digit, if there are more. -/
theorem isWord_scientific (allDigits : ∀ digit ∈ decimal.digits, digit.isDigit = true) :
    IsWord (decimal.scientific Listing.numbers) := by
  rw [scientific]
  refine .append (.append ?_ (by split_ifs <;> decide)) (isWord_integer _)
  split
  next first second rest digits =>
    rw [digits, List.forall_mem_cons] at allDigits
    intro character member
    simp only [String.toList_ofList, List.mem_cons] at member
    rcases member with rfl | rfl | later
    · exact isWordCharacter_of_isDigit allDigits.1
    · rfl
    · exact isWordCharacter_of_isDigit (allDigits.2 character (List.mem_cons.mpr later))
  next => exact isWord_of_isDigit allDigits

theorem isWord_text (number : Binary64) : IsWord (text Listing.numbers number) := by
  have isWord_sign : IsWord (if number.isNegative then "-" else "") := by split_ifs <;> decide
  have allDigits := isDigit_of_mem_shortest Listing.numbers.tie number
  simp only [text]
  generalize (if number.isNegative then "-" else "") = sign at isWord_sign
  split_ifs
  · exact isWord_sign.append (by decide)
  · exact isWord_sign.append (isWord_plain allDigits)
  · exact isWord_sign.append (isWord_scientific allDigits)

end Decimal

theorem Binary64.isWord_text (number : Binary64) : IsWord number.text := by
  rw [Binary64.text]
  split_ifs
  · decide
  · exact Decimal.isWord_text number
  · decide
  · decide

end Doubles

end ActionStream
