import ActionStream.Json.Value
import ActionStream.Proofs.Json.Numeral

/-!
# Written lexemes are read back

A text is read as a list of lexemes, in front of a given rest, when scanning goes on at the rest
with these lexemes found.  Texts that are read so one behind the other are read together, and blanks
between them are not seen.  Words, marks, quoted texts and integers are read as what they were
written for, an integer if the rest does not prolong it.
-/

namespace ActionStream.Json

open Lexeme

namespace Lexeme

/-- A text in front of a rest is scanned as the given lexemes. -/
structure Reads (front : List Char) (read : List Lexeme) (rest : List Char) : Prop where
  /-- Every lexeme takes a character at least. -/
  short : read.length ≤ front.length
  scans : ∀ found rounds,
    scan found (read.length + rounds) (front ++ rest) = scan (read.reverse ++ found) rounds rest

section

variable {front next rest : List Char} {read others : List Lexeme}

/-- What is read behind the front need not be known when the front is read. -/
theorem Reads.append (first : Reads front read (next ++ rest)) (second : Reads next others rest) :
    Reads (front ++ next) (read ++ others) rest := by
  constructor
  · have firstShort := first.short
    have secondShort := second.short
    rw [List.length_append, List.length_append]
    omega
  · intro found rounds
    rw [List.length_append, Nat.add_assoc, List.append_assoc, first.scans, second.scans,
      List.reverse_append, List.append_assoc]

theorem reads_blanks {blanks : List Char} (blank : ∀ character ∈ blanks, isBlank character = true) :
    Reads blanks [] rest := by
  refine ⟨Nat.zero_le _, fun found rounds => ?_⟩
  rw [List.length_nil, Nat.zero_add]
  cases rounds with
  | zero => rfl
  | succ rounds =>
      rw [scan, scan, List.dropWhile_append_of_pos blank]
      rfl

/-- Blanks end a number. -/
theorem endsNumber_blanks {blanks : List Char}
    (blank : ∀ character ∈ blanks, isBlank character = true) (ends : EndsNumber rest) :
    EndsNumber (blanks ++ rest) := by
  cases blanks with
  | nil => exact ends
  | cons first blanks =>
      have isBlank := (List.forall_mem_cons.mp blank).1
      simp only [Lexeme.isBlank, Bool.or_eq_true, beq_iff_eq] at isBlank
      apply endsNumber_cons
      rcases isBlank with ((rfl | rfl) | rfl) | rfl <;> decide

/-- One lexeme that begins at a character. -/
theorem reads_of_next {first : Char} {lexeme : Lexeme} (notBlank : isBlank first = false)
    (begins : Lexeme.next first (front ++ rest) = (lexeme, rest)) (sound : lexeme ≠ .fault) :
    Reads (first :: front) [lexeme] rest := by
  constructor
  · rw [List.length_singleton, List.length_cons]
    exact Nat.succ_le_succ (Nat.zero_le _)
  · intro found rounds
    rw [List.length_singleton, Nat.add_comm, List.cons_append, scan]
    rw [List.dropWhile_cons_of_neg (by rw [notBlank]; exact Bool.false_ne_true)]
    simp only [begins]
    rfl

/-- A text that is read to its end is its lexemes. -/
theorem Reads.lexemes (reads : Reads front read []) : Json.lexemes front = read := by
  obtain ⟨spare, length⟩ := Nat.exists_eq_add_of_le reads.short
  have scanned := reads.scans [] spare
  have atEnd (found : List Lexeme) : scan found spare [] = found := by
    cases spare <;> rfl
  rw [List.append_nil, List.append_nil, ← length, atEnd] at scanned
  rw [Json.lexemes, scanned, List.reverse_reverse]

end

section Words

variable (rest : List Char)

theorem reads_openList : Reads ['['] [.openList] rest :=
  reads_of_next rfl rfl (by decide)

theorem reads_closeList : Reads [']'] [.closeList] rest :=
  reads_of_next rfl rfl (by decide)

theorem reads_openObject : Reads ['\x7b'] [.openObject] rest :=
  reads_of_next rfl rfl (by decide)

theorem reads_closeObject : Reads ['\x7d'] [.closeObject] rest :=
  reads_of_next rfl rfl (by decide)

theorem reads_comma : Reads [','] [.comma] rest :=
  reads_of_next rfl rfl (by decide)

theorem reads_colon : Reads [':'] [.colon] rest :=
  reads_of_next rfl rfl (by decide)

theorem reads_null : Reads "null".toList [.null] rest :=
  reads_of_next rfl rfl (by decide)

theorem reads_boolean (value : Bool) :
    Reads (if value then "true" else "false").toList [.boolean value] rest := by
  cases value with
  | true => exact reads_of_next rfl rfl (by decide)
  | false => exact reads_of_next rfl rfl (by decide)

end Words

/-- An integer is read up to a rest that does not prolong it. -/
theorem reads_integer (value : Int) {rest : List Char} (ends : EndsNumber rest) :
    Reads (toString value).toList [.number (toString value)] rest := by
  rcases Int.lt_or_le value 0 with negative | nonnegative
  · have spelling := toList_toString_of_neg negative
    have literal : String.ofList (['-'] ++ Nat.toDigits 10 (-value).toNat) = toString value := by
      rw [← String.toList_inj, String.toList_ofList, spelling]
      rfl
    rw [spelling]
    apply reads_of_next rfl _ (by simp)
    exact (signed_toDigits ['-'] _ ends).trans (by rw [literal])
  · have spelling := toList_toString_of_nonneg nonnegative
    have literal : String.ofList ([] ++ Nat.toDigits 10 value.toNat) = toString value := by
      rw [← String.toList_inj, String.toList_ofList, spelling]
      rfl
    have read := signed_toDigits [] value.toNat ends
    rw [literal] at read
    rw [spelling]
    cases digits : Nat.toDigits 10 value.toNat with
    | nil => exact absurd digits Nat.toDigits_ne_nil
    | cons first others =>
        have isDigit : first.isDigit = true := by
          have allDigits := all_isDigit_toDigits value.toNat
          rw [digits, List.all_cons, Bool.and_eq_true] at allDigits
          exact allDigits.1
        have notBlank : isBlank first = false := by
          rw [Bool.eq_false_iff]
          intro blank
          simp only [isBlank, Bool.or_eq_true, beq_iff_eq] at blank
          rcases blank with ((rfl | rfl) | rfl) | rfl <;> exact absurd isDigit (by decide)
        rw [digits] at read
        exact reads_of_next notBlank ((next_of_isDigit isDigit).trans read) (by simp)

section Texts

/-- The escape for a control character stands for it. -/
theorem unit?_hexOctet {character : Char} (control : character.toNat < 0x20) :
    ∃ high low, Text.hexOctet (UInt8.ofNat character.toNat) = [high, low] ∧
      unit? '0' '0' high low = some character.toNat := by
  have all : ∀ code < 0x20, unit? '0' '0' (Nat.digitChar ((UInt8.ofNat code).toNat / 16))
      (Nat.digitChar ((UInt8.ofNat code).toNat % 16)) = some code := by
    decide
  exact ⟨_, _, rfl, all _ control⟩

theorem string_escapeCharacter (found : List Char) (character : Char) (rest : List Char) :
    string found false (escapeCharacter character ++ rest) =
      string (character :: found) false rest := by
  unfold escapeCharacter
  split_ifs with quotation backslash backspace formFeed lineFeed carriageReturn tabulator control
  · subst quotation
    rfl
  · subst backslash
    rfl
  · subst backspace
    rfl
  · subst formFeed
    rfl
  · subst lineFeed
    rfl
  · subst carriageReturn
    rfl
  · subst tabulator
    rfl
  · obtain ⟨high, low, octet, code⟩ := unit?_hexOctet control
    have noHalf : isHighHalf character.toNat = false ∧ isLowHalf character.toNat = false := by
      simp only [isHighHalf, isLowHalf, Bool.and_eq_false_iff, decide_eq_false_iff_not]
      omega
    rw [octet]
    change string found false ('\\' :: 'u' :: '0' :: '0' :: high :: low :: rest) = _
    rw [string]
    simp only [code, noHalf, Bool.false_eq_true, if_false, Char.ofNat_toNat]
  · rw [List.singleton_append, string]
    · rw [if_neg (not_or.mpr ⟨control, backslash⟩)]
    · exact quotation
    · exact fun _ _ _ _ _ same _ => backslash same
    · exact fun _ _ same _ => backslash same

/-- A written text is read up to its last quotation mark. -/
theorem string_flatMap_escapeCharacter (found characters rest : List Char) :
    string found false (characters.flatMap escapeCharacter ++ '"' :: rest) =
      (.text (String.ofList (found.reverse ++ characters)), rest) := by
  induction characters generalizing found with
  | nil => simp [string]
  | cons character characters ih =>
      rw [List.flatMap_cons, List.append_assoc, string_escapeCharacter, ih, List.reverse_cons,
        List.append_assoc]
      rfl

theorem reads_text (value : String) (rest : List Char) :
    Reads (writtenText value).toList [.text value] rest := by
  rw [writtenText, String.toList_ofList]
  apply reads_of_next rfl _ (by simp)
  have read := string_flatMap_escapeCharacter [] value.toList rest
  rw [List.reverse_nil, List.nil_append, String.ofList_toList] at read
  rw [next, ← read]
  exact congrArg (string [] false) (List.append_assoc ..)

end Texts

end Lexeme

end ActionStream.Json
