import ActionStream.Text.Utf8
import Mathlib.Tactic.SplitIfs

/-!
# Variable-width text is read back

Splitting a byte string into pieces undoes the encoding of characters, one character at a time, and
a byte string in whose pieces no fault stands is the encoded form of its characters.  Decoding
therefore accepts exactly the encoded forms of texts.
-/

namespace ActionStream.Text.Utf8

/-- A code point is the code of its character. -/
theorem toNat_charOfNat {code : Nat} (valid : code.isValidChar) :
    (Char.ofNat code).toNat = code := by
  rw [Char.ofNat, dif_pos valid]
  rfl

/-- A continuation byte as a range of numbers. -/
theorem isContinuation_iff (byte : UInt8) :
    isContinuation byte = true ↔ 0x80 ≤ byte.toNat ∧ byte.toNat ≤ 0xBF := by
  simp [isContinuation, UInt8.le_iff_toNat_le]

/-- What follows the first byte of three is a continuation byte that makes the form neither overlong
nor a surrogate. -/
theorem isSecondOfThree_iff (lead second : UInt8) :
    isSecondOfThree lead second = true ↔
      (0x80 ≤ second.toNat ∧ second.toNat ≤ 0xBF) ∧
        (lead.toNat = 0xE0 → 0xA0 ≤ second.toNat) ∧
        (lead.toNat = 0xED → second.toNat ≤ 0x9F) := by
  unfold isSecondOfThree
  by_cases overlong : lead = 0xE0
  · subst overlong
    simp [UInt8.le_iff_toNat_le]
    omega
  · have notOverlong : lead.toNat ≠ 0xE0 := fun same => overlong (UInt8.toNat_inj.mp same)
    by_cases surrogate : lead = 0xED
    · subst surrogate
      simp [UInt8.le_iff_toNat_le]
      omega
    · have notSurrogate : lead.toNat ≠ 0xED := fun same => surrogate (UInt8.toNat_inj.mp same)
      simp [overlong, surrogate, notOverlong, notSurrogate, isContinuation_iff]

/-- What follows the first byte of four is a continuation byte that makes the form neither overlong
nor greater than the last code point. -/
theorem isSecondOfFour_iff (lead second : UInt8) :
    isSecondOfFour lead second = true ↔
      (0x80 ≤ second.toNat ∧ second.toNat ≤ 0xBF) ∧
        (lead.toNat = 0xF0 → 0x90 ≤ second.toNat) ∧
        (lead.toNat = 0xF4 → second.toNat ≤ 0x8F) := by
  unfold isSecondOfFour
  by_cases overlong : lead = 0xF0
  · subst overlong
    simp [UInt8.le_iff_toNat_le]
    omega
  · have notOverlong : lead.toNat ≠ 0xF0 := fun same => overlong (UInt8.toNat_inj.mp same)
    by_cases last : lead = 0xF4
    · subst last
      simp [UInt8.le_iff_toNat_le]
      omega
    · have notLast : lead.toNat ≠ 0xF4 := fun same => last (UInt8.toNat_inj.mp same)
      simp [overlong, last, notOverlong, notLast, isContinuation_iff]

section Sequences

variable {lead second third fourth : UInt8}

theorem utf8EncodeChar_of_ascii (ascii : lead < 0x80) :
    String.utf8EncodeChar (Char.ofNat lead.toNat) = [lead] := by
  simp only [UInt8.lt_iff_toNat_lt, UInt8.reduceToNat] at ascii
  have valid : lead.toNat.isValidChar := by
    left
    omega
  have code : (Char.ofNat lead.toNat).toNat = lead.toNat := by
    rw [toNat_charOfNat valid]
  simp only [String.utf8EncodeChar, Char.toNat_val, code]
  rw [if_pos (by omega), UInt8.ofNat_toNat]

theorem utf8EncodeChar_characterOfTwo (leadRange : 0xC2 ≤ lead ∧ lead ≤ 0xDF)
    (follows : isContinuation second = true) :
    String.utf8EncodeChar (characterOfTwo lead second) = [lead, second] := by
  rw [isContinuation_iff] at follows
  simp only [UInt8.le_iff_toNat_le, UInt8.reduceToNat] at leadRange
  have valid : ((lead.toNat - 0xC0) * 64 + (second.toNat - 0x80)).isValidChar := by
    left
    omega
  have code : (characterOfTwo lead second).toNat =
      (lead.toNat - 0xC0) * 64 + (second.toNat - 0x80) := by
    rw [characterOfTwo, toNat_charOfNat valid]
  simp only [String.utf8EncodeChar, Char.toNat_val, code]
  rw [if_neg (by omega), if_pos (by omega)]
  simp only [List.cons.injEq, and_true]
  constructor <;> apply UInt8.toNat_inj.mp <;> simp only [UInt8.toNat_ofNat'] <;> omega

theorem utf8EncodeChar_characterOfThree (leadRange : 0xE0 ≤ lead ∧ lead ≤ 0xEF)
    (secondFollows : isSecondOfThree lead second = true)
    (thirdFollows : isContinuation third = true) :
    String.utf8EncodeChar (characterOfThree lead second third) = [lead, second, third] := by
  rw [isContinuation_iff] at thirdFollows
  rw [isSecondOfThree_iff] at secondFollows
  simp only [UInt8.le_iff_toNat_le, UInt8.reduceToNat] at leadRange
  have valid : ((lead.toNat - 0xE0) * 4096 + (second.toNat - 0x80) * 64 +
      (third.toNat - 0x80)).isValidChar := by
    unfold Nat.isValidChar
    omega
  have code : (characterOfThree lead second third).toNat =
      (lead.toNat - 0xE0) * 4096 + (second.toNat - 0x80) * 64 + (third.toNat - 0x80) := by
    rw [characterOfThree, toNat_charOfNat valid]
  simp only [String.utf8EncodeChar, Char.toNat_val, code]
  rw [if_neg (by omega), if_neg (by omega), if_pos (by omega)]
  simp only [List.cons.injEq, and_true]
  refine ⟨?_, ?_, ?_⟩ <;> apply UInt8.toNat_inj.mp <;> simp only [UInt8.toNat_ofNat'] <;> omega

theorem utf8EncodeChar_characterOfFour (leadRange : 0xF0 ≤ lead ∧ lead ≤ 0xF4)
    (secondFollows : isSecondOfFour lead second = true)
    (thirdFollows : isContinuation third = true) (fourthFollows : isContinuation fourth = true) :
    String.utf8EncodeChar (characterOfFour lead second third fourth) =
      [lead, second, third, fourth] := by
  rw [isContinuation_iff] at thirdFollows fourthFollows
  rw [isSecondOfFour_iff] at secondFollows
  simp only [UInt8.le_iff_toNat_le, UInt8.reduceToNat] at leadRange
  have valid : ((lead.toNat - 0xF0) * 262144 + (second.toNat - 0x80) * 4096 +
      (third.toNat - 0x80) * 64 + (fourth.toNat - 0x80)).isValidChar := by
    right
    omega
  have code : (characterOfFour lead second third fourth).toNat =
      (lead.toNat - 0xF0) * 262144 + (second.toNat - 0x80) * 4096 +
        (third.toNat - 0x80) * 64 + (fourth.toNat - 0x80) := by
    rw [characterOfFour, toNat_charOfNat valid]
  simp only [String.utf8EncodeChar, Char.toNat_val, code]
  rw [if_neg (by omega), if_neg (by omega), if_neg (by omega)]
  simp only [List.cons.injEq, and_true]
  refine ⟨?_, ?_, ?_, ?_⟩ <;> apply UInt8.toNat_inj.mp <;> simp only [UInt8.toNat_ofNat'] <;> omega

end Sequences

section Pieces

variable {lead second third fourth : UInt8} (index : Nat) (found : List Piece) (rest : List UInt8)

theorem piecesFrom_one (ascii : lead.toNat < 0x80) :
    piecesFrom index found (lead :: rest) =
      piecesFrom (index + 1) (.character (Char.ofNat lead.toNat) :: found) rest := by
  have below : lead < 0x80 := UInt8.lt_iff_toNat_lt.mpr ascii
  rw [piecesFrom.eq_def]
  simp only [if_pos below]

theorem piecesFrom_two (leadRange : 0xC2 ≤ lead.toNat ∧ lead.toNat ≤ 0xDF)
    (follows : isContinuation second = true) :
    piecesFrom index found (lead :: second :: rest) =
      piecesFrom (index + 2) (.character (characterOfTwo lead second) :: found) rest := by
  have above : ¬ lead < 0x80 := by
    simp only [UInt8.lt_iff_toNat_lt, UInt8.reduceToNat]
    omega
  have twoBytes : 0xC2 ≤ lead ∧ lead ≤ 0xDF := by
    simpa only [UInt8.le_iff_toNat_le, UInt8.reduceToNat] using leadRange
  rw [piecesFrom.eq_def]
  simp only [if_neg above, if_pos twoBytes, follows, if_true]

theorem piecesFrom_three (leadRange : 0xE0 ≤ lead.toNat ∧ lead.toNat ≤ 0xEF)
    (secondFollows : isSecondOfThree lead second = true)
    (thirdFollows : isContinuation third = true) :
    piecesFrom index found (lead :: second :: third :: rest) =
      piecesFrom (index + 3) (.character (characterOfThree lead second third) :: found) rest := by
  have above : ¬ lead < 0x80 := by
    simp only [UInt8.lt_iff_toNat_lt, UInt8.reduceToNat]
    omega
  have notTwoBytes : ¬ (0xC2 ≤ lead ∧ lead ≤ 0xDF) := by
    simp only [UInt8.le_iff_toNat_le, UInt8.reduceToNat]
    omega
  have threeBytes : 0xE0 ≤ lead ∧ lead ≤ 0xEF := by
    simpa only [UInt8.le_iff_toNat_le, UInt8.reduceToNat] using leadRange
  rw [piecesFrom.eq_def]
  simp only [if_neg above, if_neg notTwoBytes, if_pos threeBytes, secondFollows, thirdFollows,
    if_true]

theorem piecesFrom_four (leadRange : 0xF0 ≤ lead.toNat ∧ lead.toNat ≤ 0xF4)
    (secondFollows : isSecondOfFour lead second = true)
    (thirdFollows : isContinuation third = true) (fourthFollows : isContinuation fourth = true) :
    piecesFrom index found (lead :: second :: third :: fourth :: rest) =
      piecesFrom (index + 4) (.character (characterOfFour lead second third fourth) :: found)
        rest := by
  have above : ¬ lead < 0x80 := by
    simp only [UInt8.lt_iff_toNat_lt, UInt8.reduceToNat]
    omega
  have notTwoBytes : ¬ (0xC2 ≤ lead ∧ lead ≤ 0xDF) := by
    simp only [UInt8.le_iff_toNat_le, UInt8.reduceToNat]
    omega
  have notThreeBytes : ¬ (0xE0 ≤ lead ∧ lead ≤ 0xEF) := by
    simp only [UInt8.le_iff_toNat_le, UInt8.reduceToNat]
    omega
  have fourBytes : 0xF0 ≤ lead ∧ lead ≤ 0xF4 := by
    simpa only [UInt8.le_iff_toNat_le, UInt8.reduceToNat] using leadRange
  rw [piecesFrom.eq_def]
  simp only [if_neg above, if_neg notTwoBytes, if_neg notThreeBytes, if_pos fourBytes,
    secondFollows, thirdFollows, fourthFollows, if_true]

/-- The encoded form of a character in front is split off as one piece. -/
theorem piecesFrom_utf8EncodeChar (character : Char) :
    ∃ next, piecesFrom index found (String.utf8EncodeChar character ++ rest) =
      piecesFrom next (.character character :: found) rest := by
  have valid : character.toNat.isValidChar := character.valid
  unfold Nat.isValidChar at valid
  have restored : ∀ code, code = character.toNat → Char.ofNat code = character := by
    rintro code rfl
    exact Char.ofNat_toNat character
  unfold String.utf8EncodeChar
  simp only [Char.toNat_val, List.cons_append, List.nil_append, apply_ite (· ++ rest)]
  split_ifs with oneByte twoBytes threeBytes
  · refine ⟨index + 1, (piecesFrom_one index found rest ?_).trans ?_⟩
    · rw [UInt8.toNat_ofNat']
      omega
    · rw [restored _ (by rw [UInt8.toNat_ofNat']; omega)]
  · refine ⟨index + 2, (piecesFrom_two index found rest ?_ ?_).trans ?_⟩
    · rw [UInt8.toNat_ofNat']
      omega
    · rw [isContinuation_iff, UInt8.toNat_ofNat']
      omega
    · rw [characterOfTwo, restored _ (by simp only [UInt8.toNat_ofNat']; omega)]
  · refine ⟨index + 3, (piecesFrom_three index found rest ?_ ?_ ?_).trans ?_⟩
    · rw [UInt8.toNat_ofNat']
      omega
    · simp only [isSecondOfThree_iff, UInt8.toNat_ofNat']
      omega
    · rw [isContinuation_iff, UInt8.toNat_ofNat']
      omega
    · rw [characterOfThree, restored _ (by simp only [UInt8.toNat_ofNat']; omega)]
  · refine ⟨index + 4, (piecesFrom_four index found rest ?_ ?_ ?_ ?_).trans ?_⟩
    · rw [UInt8.toNat_ofNat']
      omega
    · simp only [isSecondOfFour_iff, UInt8.toNat_ofNat']
      omega
    · rw [isContinuation_iff, UInt8.toNat_ofNat']
      omega
    · rw [isContinuation_iff, UInt8.toNat_ofNat']
      omega
    · rw [characterOfFour, restored _ (by simp only [UInt8.toNat_ofNat']; omega)]

end Pieces

/-- The pieces found so far stay. -/
theorem mem_piecesFrom_of_mem {piece : Piece} (index : Nat) (found : List Piece)
    (bytes : List UInt8) (member : piece ∈ found) : piece ∈ piecesFrom index found bytes := by
  fun_induction piecesFrom index found bytes <;> simp_all

/-- Without a fault the pieces are the characters whose encoded forms the byte string consists
of. -/
theorem exists_characters_of_piecesFrom (index : Nat) (found : List Piece) (bytes : List UInt8)
    (noFault : ∀ fault, .fault fault ∉ piecesFrom index found bytes) :
    ∃ characters : List Char,
      piecesFrom index found bytes = (characters.map .character).reverse ++ found ∧
        bytes = characters.flatMap String.utf8EncodeChar := by
  fun_induction piecesFrom index found bytes with
  | case1 index found => exact ⟨[], by simp⟩
  | case2 index found lead rest ascii ih =>
      obtain ⟨characters, pieces, rfl⟩ := ih noFault
      refine ⟨Char.ofNat lead.toNat :: characters, by simp [pieces], ?_⟩
      rw [List.flatMap_cons, utf8EncodeChar_of_ascii ascii, List.singleton_append]
  | case4 index found lead above leadRange second rest follows ih =>
      obtain ⟨characters, pieces, rfl⟩ := ih noFault
      refine ⟨characterOfTwo lead second :: characters, by simp [pieces], ?_⟩
      rw [List.flatMap_cons, utf8EncodeChar_characterOfTwo leadRange follows]
      rfl
  | case8 index found lead above notTwo leadRange second secondFollows third rest thirdFollows ih =>
      obtain ⟨characters, pieces, rfl⟩ := ih noFault
      refine ⟨characterOfThree lead second third :: characters, by simp [pieces], ?_⟩
      rw [List.flatMap_cons, utf8EncodeChar_characterOfThree leadRange secondFollows thirdFollows]
      rfl
  | case14 index found lead above notTwo notThree leadRange second secondFollows third
      thirdFollows fourth rest fourthFollows ih =>
      obtain ⟨characters, pieces, rfl⟩ := ih noFault
      refine ⟨characterOfFour lead second third fourth :: characters, by simp [pieces], ?_⟩
      rw [List.flatMap_cons, utf8EncodeChar_characterOfFour leadRange secondFollows thirdFollows
        fourthFollows]
      rfl
  -- In every other case a fault has just been found, and it stays.
  | _ =>
      exfalso
      first
        | exact noFault _ (List.mem_cons_self ..)
        | exact noFault _ (mem_piecesFrom_of_mem _ _ _ (List.mem_cons_self ..))

/-- The pieces of encoded characters are those characters. -/
theorem piecesFrom_flatMap_utf8EncodeChar (index : Nat) (found : List Piece)
    (characters : List Char) :
    piecesFrom index found (characters.flatMap String.utf8EncodeChar) =
      (characters.map .character).reverse ++ found := by
  induction characters generalizing index found with
  | nil => simp [piecesFrom]
  | cons character characters ih =>
      obtain ⟨next, split⟩ := piecesFrom_utf8EncodeChar index found
        (characters.flatMap String.utf8EncodeChar) character
      rw [List.flatMap_cons, split, ih]
      simp

theorem pieces_eq_map_character_iff (bytes : List UInt8) (characters : List Char) :
    pieces bytes = characters.map .character ↔
      bytes = characters.flatMap String.utf8EncodeChar := by
  constructor
  · intro split
    have noFault : ∀ fault, .fault fault ∉ piecesFrom 0 [] bytes := by
      intro fault member
      have listed : Piece.fault fault ∈ characters.map .character := by
        rw [← split, pieces]
        exact List.mem_reverse.mpr member
      simp at listed
    obtain ⟨decoded, splitFrom, rfl⟩ := exists_characters_of_piecesFrom 0 [] bytes noFault
    have sameCharacters : decoded.map Piece.character = characters.map .character := by
      rw [← split, pieces, splitFrom]
      simp
    rw [(List.map_inj_right fun _ _ same => Piece.character.inj same).mp sameCharacters]
  · rintro rfl
    rw [pieces, piecesFrom_flatMap_utf8EncodeChar]
    simp

theorem charactersOrFault_eq_ok_iff (found : List Char) (split : List Piece)
    (characters : List Char) :
    charactersOrFault found split = .ok characters ↔
      ∃ more : List Char, split = more.map .character ∧ characters = found.reverse ++ more := by
  induction split generalizing found with
  | nil => simp [charactersOrFault, eq_comm]
  | cons piece split ih =>
      cases piece with
      | fault fault =>
          simp only [charactersOrFault, reduceCtorEq, false_iff]
          rintro ⟨more, same, -⟩
          cases more <;> simp at same
      | character value =>
          rw [charactersOrFault, ih]
          constructor
          · rintro ⟨more, rfl, rfl⟩
            exact ⟨value :: more, by simp, by simp⟩
          · rintro ⟨more, same, rfl⟩
            cases more with
            | nil => simp at same
            | cons first more =>
                simp only [List.map_cons, List.cons.injEq, Piece.character.injEq] at same
                obtain ⟨rfl, rfl⟩ := same
                exact ⟨more, rfl, by simp⟩

/-- Decoding accepts exactly the encoded forms. -/
theorem decode_eq_ok_iff (bytes : List UInt8) (text : String) :
    decode bytes = .ok text ↔ bytes = encode text := by
  have fromPieces : decode bytes = .ok text ↔
      charactersOrFault [] (pieces bytes) = .ok text.toList := by
    rw [decode]
    cases charactersOrFault [] (pieces bytes) with
    | error fault => simp [Except.map]
    | ok characters =>
        simp only [Except.map, Except.ok.injEq]
        exact ⟨fun same => by rw [← same, String.toList_ofList],
          fun same => by rw [same, String.ofList_toList]⟩
  rw [fromPieces, charactersOrFault_eq_ok_iff]
  simp only [List.reverse_nil, List.nil_append, exists_eq_right']
  exact pieces_eq_map_character_iff bytes text.toList

end ActionStream.Text.Utf8
