import ActionStream.Json.Lexeme
import ActionStream.Text.Quoted
import Mathlib.Data.List.TakeDrop

/-!
# Quoted text as a code

The hexadecimal digits of a number stand for it in either letter case, with or without zeros in
front.  The written form of a character is read back whatever is behind it, and it never begins with
the delimiter, so a quoted text ends at the first delimiter that no escape covers: a text and what
follows it are determined by the quoted form.
-/

namespace ActionStream.Text

section Digits

variable {letterCase : LetterCase} {number : Nat}

/-- The hexadecimal digit of a number below sixteen. -/
def hexDigit : LetterCase → Nat → Char
  | .lower, number => Nat.digitChar number
  | .upper, number => (Nat.digitChar number).toUpper

theorem hexDigits_of_lt (small : number < 16) :
    hexDigits letterCase number = [hexDigit letterCase number] := by
  cases letterCase <;> simp [hexDigits, hexDigit, Nat.toDigits_of_lt_base small]

theorem hexDigits_of_le (large : 16 ≤ number) :
    hexDigits letterCase number =
      hexDigits letterCase (number / 16) ++ [hexDigit letterCase (number % 16)] := by
  cases letterCase <;> simp [hexDigits, hexDigit, Nat.toDigits_of_base_le (by decide) large]

theorem hexValue?_hexDigit (letterCase : LetterCase) :
    ∀ number < 16, Json.Lexeme.hexValue? (hexDigit letterCase number) = some number := by
  cases letterCase <;> decide

theorem isAlphanum_hexDigit (letterCase : LetterCase) :
    ∀ number < 16, (hexDigit letterCase number).isAlphanum = true := by
  cases letterCase <;> decide

theorem isAlphanum_of_mem_hexDigits (letterCase : LetterCase) (number : Nat) :
    ∀ digit ∈ hexDigits letterCase number, digit.isAlphanum = true := by
  induction number using Nat.strongRecOn with
  | ind number ih =>
      by_cases small : number < 16
      · rw [hexDigits_of_lt small, List.forall_mem_singleton]
        exact isAlphanum_hexDigit letterCase number small
      · rw [hexDigits_of_le (Nat.le_of_not_lt small), List.forall_mem_append,
          List.forall_mem_singleton]
        exact ⟨ih _ (by omega), isAlphanum_hexDigit letterCase _ (Nat.mod_lt _ (by decide))⟩

/-- The number that hexadecimal digits of either letter case stand for. -/
def hexNumber (digits : List Char) : Nat :=
  digits.foldl (fun number digit => 16 * number + (Json.Lexeme.hexValue? digit).getD 0) 0

theorem hexNumber_append_singleton (digits : List Char) (digit : Char) :
    hexNumber (digits ++ [digit]) =
      16 * hexNumber digits + (Json.Lexeme.hexValue? digit).getD 0 := by
  rw [hexNumber, List.foldl_append]
  rfl

theorem hexNumber_hexDigits (letterCase : LetterCase) (number : Nat) :
    hexNumber (hexDigits letterCase number) = number := by
  induction number using Nat.strongRecOn with
  | ind number ih =>
      by_cases small : number < 16
      · rw [hexDigits_of_lt small, ← List.nil_append [_], hexNumber_append_singleton,
          hexValue?_hexDigit letterCase number small]
        simp [hexNumber]
      · rw [hexDigits_of_le (Nat.le_of_not_lt small), hexNumber_append_singleton,
          hexValue?_hexDigit letterCase _ (Nat.mod_lt _ (by decide)), ih _ (by omega)]
        exact Nat.div_add_mod number 16

theorem hexNumber_replicate_append (zeros : Nat) (digits : List Char) :
    hexNumber (List.replicate zeros '0' ++ digits) = hexNumber digits := by
  induction zeros with
  | zero => rfl
  | succ zeros ih =>
      rw [List.replicate_succ, List.cons_append]
      exact ih

/-- Zeros in front do not change what digits stand for. -/
theorem hexNumber_hexPadded (letterCase : LetterCase) (width number : Nat) :
    hexNumber (hexPadded letterCase width number).toList = number := by
  rw [hexPadded, String.toList_ofList, hexNumber_replicate_append, hexNumber_hexDigits]

theorem isAlphanum_of_mem_hexPadded (letterCase : LetterCase) (width number : Nat) :
    ∀ digit ∈ (hexPadded letterCase width number).toList, digit.isAlphanum = true := by
  rw [hexPadded, String.toList_ofList, List.forall_mem_append]
  refine ⟨fun digit member => ?_, isAlphanum_of_mem_hexDigits letterCase number⟩
  rw [List.eq_of_mem_replicate member]
  decide

end Digits

section Escapes

variable {first second : String} {rest others : List Char}

/-- Reads the first character of the inside of a quoted text: the character that is meant, and what
is behind its written form. -/
def unescape : List Char → Char × List Char
  | '\\' :: 'u' :: '\x7b' :: rest =>
    (Char.ofNat (hexNumber (rest.takeWhile (· ≠ '\x7d'))), (rest.dropWhile (· ≠ '\x7d')).drop 1)
  | '\\' :: '0' :: rest => ('\x00', rest)
  | '\\' :: 't' :: rest => ('\t', rest)
  | '\\' :: 'n' :: rest => ('\n', rest)
  | '\\' :: 'r' :: rest => ('\r', rest)
  | '\\' :: character :: rest => (character, rest)
  | character :: rest => (character, rest)
  | [] => default

/-- A code point between braces ends at the closing brace. -/
theorem unescape_codePoint (character : Char) (rest : List Char) :
    unescape (['\\', 'u', '\x7b'] ++ hexDigits .lower character.toNat ++ ['\x7d'] ++ rest) =
      (character, rest) := by
  have inside : ∀ digit ∈ hexDigits .lower character.toNat,
      decide (digit ≠ '\x7d') = true := by
    intro digit member
    rw [decide_eq_true_iff]
    rintro rfl
    exact absurd (isAlphanum_of_mem_hexDigits _ _ _ member) (by decide)
  simp only [List.cons_append, List.nil_append, List.append_assoc]
  rw [unescape, List.takeWhile_append_of_pos inside, List.dropWhile_append_of_pos inside]
  simp [hexNumber_hexDigits, Char.ofNat_toNat]

/-- The written form of a character is read back whatever follows. -/
theorem unescape_escapeCharacter (character : Char) (rest : List Char) :
    unescape (escapeCharacter '"' character ++ rest) = (character, rest) := by
  unfold escapeCharacter
  split_ifs with isNul isTab isLineFeed isReturn isBackslash isDelimiter visible
  · subst isNul; rfl
  · subst isTab; rfl
  · subst isLineFeed; rfl
  · subst isReturn; rfl
  · subst isBackslash; rfl
  · subst isDelimiter; rfl
  · rw [List.singleton_append]
    unfold unescape
    split <;> simp_all
  · exact unescape_codePoint character rest

/-- The written form of a character is not empty and does not begin with the delimiter. -/
theorem escapeCharacter_append_ne (character : Char) (rest others : List Char) :
    escapeCharacter '"' character ++ rest ≠ '"' :: others := by
  unfold escapeCharacter
  split_ifs <;> simp_all

theorem flatMap_escapeCharacter_inj {firsts seconds : List Char} :
    firsts.flatMap (escapeCharacter '"') ++ '"' :: rest =
        seconds.flatMap (escapeCharacter '"') ++ '"' :: others ↔
      firsts = seconds ∧ rest = others := by
  refine ⟨fun same => ?_, by rintro ⟨rfl, rfl⟩; rfl⟩
  induction firsts generalizing seconds with
  | nil =>
      cases seconds with
      | nil => exact ⟨rfl, (List.cons.inj same).2⟩
      | cons second seconds =>
          -- The closing delimiter of one text would be the first character of the other.
          rw [List.flatMap_cons, List.append_assoc] at same
          exact absurd same.symm (escapeCharacter_append_ne second _ _)
  | cons first firsts ih =>
      cases seconds with
      | nil =>
          rw [List.flatMap_cons, List.append_assoc] at same
          exact absurd same (escapeCharacter_append_ne first _ _)
      | cons second seconds =>
          -- Reading one character leaves what is behind it, which the induction is about.
          simp only [List.flatMap_cons, List.append_assoc] at same
          have read := congrArg unescape same
          rw [unescape_escapeCharacter, unescape_escapeCharacter, Prod.mk.injEq] at read
          obtain ⟨sameRest, sameOthers⟩ := ih read.2
          exact ⟨by rw [read.1, sameRest], sameOthers⟩

theorem toList_quoted (text : String) :
    (quoted text).toList = '"' :: (text.toList.flatMap (escapeCharacter '"') ++ ['"']) := by
  rw [quoted, String.toList_ofList]
  rfl

/-- A quoted text and what follows it are determined by the written form. -/
theorem quoted_append_inj :
    (quoted first).toList ++ rest = (quoted second).toList ++ others ↔
      first = second ∧ rest = others := by
  simp only [toList_quoted, List.cons_append, List.append_assoc, List.nil_append,
    List.cons.injEq, true_and, flatMap_escapeCharacter_inj, String.toList_inj]

/-- No character is written with a line end in it. -/
theorem lineFeed_not_mem_escapeCharacter (character : Char) :
    '\n' ∉ escapeCharacter '"' character := by
  unfold escapeCharacter
  split_ifs with isNul isTab isLineFeed isReturn isBackslash isDelimiter visible
  any_goals decide
  · simpa using Ne.symm isLineFeed
  · simp only [List.mem_append, not_or]
    refine ⟨⟨by decide, fun member => ?_⟩, by decide⟩
    exact absurd (isAlphanum_of_mem_hexDigits _ _ _ member) (by decide)

theorem lineFeed_not_mem_quoted (text : String) : '\n' ∉ (quoted text).toList := by
  rw [toList_quoted]
  simp [lineFeed_not_mem_escapeCharacter]

end Escapes

end ActionStream.Text
