import ActionStream.Proofs.Text.Utf8
import ActionStream.Proofs.Wire.Emitting

/-!
# Texts in a stream

A text has one form in a context: its encoded bytes, delimited as the layout says.  It has that form
only if the character set covers it and the layout can mark its end.  Reading accepts exactly these
forms and writing emits exactly them.
-/

namespace ActionStream

namespace TextEncoding

/-- The encoded bytes of a text. -/
def rawBytes : TextEncoding → String → List UInt8
  | latin1, text => text.toList.map fun character => UInt8.ofNat character.toNat
  | utf8, text => Text.Utf8.encode text

/-- Every character of a text is in the character set. -/
def Covers : TextEncoding → String → Prop
  | latin1, text => ∀ character ∈ text.toList, character.toNat < 256
  | utf8, _ => True

theorem length_rawBytes (encoding : TextEncoding) (text : String) :
    (encoding.rawBytes text).length = encoding.byteLength text := by
  cases encoding with
  | latin1 => rw [rawBytes, List.length_map, String.length_toList, byteLength]
  | utf8 => exact Text.Utf8.length_encode text

theorem latin1Bytes_eq_ok_iff (text : String) (found : List UInt8) (characters : List Char)
    (bytes : List UInt8) :
    latin1Bytes text found characters = .ok bytes ↔
      (∀ character ∈ characters, character.toNat < 256) ∧
        bytes = found.reverse ++ characters.map fun character => UInt8.ofNat character.toNat := by
  induction characters generalizing found with
  | nil => simp [latin1Bytes, eq_comm]
  | cons character characters ih =>
      rw [latin1Bytes]
      by_cases covered : character.toNat < 256
      · rw [if_pos covered, ih]
        simp [covered]
      · rw [if_neg covered]
        simp [covered]

/-- The encoded form of a character below 128 is its code. -/
theorem utf8EncodeChar_of_lt {character : Char} (ascii : character.toNat < 128) :
    String.utf8EncodeChar character = [UInt8.ofNat character.toNat] := by
  have code : (UInt8.ofNat character.toNat).toNat = character.toNat :=
    UInt8.toNat_ofNat_of_lt' (Nat.lt_trans ascii (by decide))
  have below : UInt8.ofNat character.toNat < 0x80 := by rwa [UInt8.lt_iff_toNat_lt, code]
  have encoded := Text.Utf8.utf8EncodeChar_of_ascii below
  rwa [code, Char.ofNat_toNat] at encoded

theorem latin1Bytes_of_forall_lt (text : String) (found : List UInt8) {characters : List Char}
    (ascii : ∀ character ∈ characters, character.toNat < 128) :
    latin1Bytes text found characters =
      .ok (found.reverse ++ characters.flatMap String.utf8EncodeChar) := by
  induction characters generalizing found with
  | nil => simp [latin1Bytes]
  | cons character characters ih =>
      rw [List.forall_mem_cons] at ascii
      have covered : character.toNat < 256 := Nat.lt_trans ascii.1 (by decide)
      rw [latin1Bytes, if_pos covered, ih _ ascii.2, List.flatMap_cons,
        utf8EncodeChar_of_lt ascii.1]
      simp

/-- Whether or not the shortcut for ASCII characters is taken, the outcome is that of going through
the characters. -/
theorem encode_latin1 (text : String) :
    encode latin1 text = latin1Bytes text [] text.toList := by
  rw [encode]
  split
  next ascii =>
    have small : ∀ character ∈ text.toList, character.toNat < 128 := by simpa [isAscii] using ascii
    rw [latin1Bytes_of_forall_lt text [] small]
    rfl
  next => rfl

theorem encode_eq_ok_iff (encoding : TextEncoding) (text : String) (bytes : List UInt8) :
    encoding.encode text = .ok bytes ↔ encoding.Covers text ∧ bytes = encoding.rawBytes text := by
  cases encoding with
  | latin1 =>
      rw [encode_latin1]
      exact latin1Bytes_eq_ok_iff text [] text.toList bytes
  | utf8 => simp [encode, Covers, rawBytes, eq_comm]

/-- A byte is the code of one of the first 256 characters. -/
theorem toNat_charOfByte (byte : UInt8) : (Char.ofNat byte.toNat).toNat = byte.toNat := by
  apply Text.Utf8.toNat_charOfNat
  have bound := byte.toNat_lt
  left
  omega

theorem decode_eq_ok_iff (encoding : TextEncoding) (text : String) (bytes : List UInt8) :
    encoding.decode bytes = .ok text ↔ encoding.Covers text ∧ bytes = encoding.rawBytes text := by
  cases encoding with
  | latin1 =>
      simp only [decode, Covers, rawBytes, Except.ok.injEq]
      constructor
      · rintro rfl
        simp only [String.toList_ofList, List.map_map, Function.comp_def, toNat_charOfByte,
          UInt8.ofNat_toNat, List.map_id', List.mem_map, and_true]
        rintro character ⟨byte, -, rfl⟩
        rw [toNat_charOfByte]
        exact byte.toNat_lt
      · rintro ⟨covered, rfl⟩
        rw [← String.toList_inj, String.toList_ofList, List.map_map]
        refine (List.map_congr_left fun character member => ?_).trans (List.map_id _)
        have bound := covered character member
        simp only [Function.comp_apply, UInt8.toNat_ofNat', id_eq]
        rw [Nat.mod_eq_of_lt bound, Char.ofNat_toNat]
  | utf8 =>
      have accepted := Text.Utf8.decode_eq_ok_iff bytes text
      simp only [decode, Covers, rawBytes, true_and, ← accepted]
      cases Text.Utf8.decode bytes <;> simp

end TextEncoding

namespace TextLayout

/-- The end of the encoded bytes can be marked. -/
def Admits : TextLayout → List UInt8 → Prop
  | nulTerminated, encoded => 0 ∉ encoded
  | lengthPrefixed, encoded => encoded.length ≤ 65535

theorem check_eq_ok_iff (layout : TextLayout) (encoded : List UInt8) :
    layout.check encoded = .ok () ↔ layout.Admits encoded := by
  cases layout with
  | nulTerminated => simp [check, Admits]
  | lengthPrefixed => simp [check, Admits]

end TextLayout

namespace Context

/-- A text that can be written: its characters are in the set and its end can be marked. -/
def Writable (context : Context) (text : String) : Prop :=
  context.encoding.Covers text ∧ context.layout.Admits (context.encoding.rawBytes text)

/-- The bytes of a text in a stream. -/
def textBytes (context : Context) (text : String) : List UInt8 :=
  Writer.delimited context.layout (context.encoding.rawBytes text)

@[simp]
theorem length_textBytes (context : Context) (text : String) :
    (context.textBytes text).length = context.textSize text := by
  rw [textBytes, Writer.length_delimited, TextEncoding.length_rawBytes, textSize]

@[simp]
theorem length_flatMap_textBytes (context : Context) (texts : List String) :
    (texts.flatMap context.textBytes).length = sumOver context.textSize texts :=
  length_flatMap_eq_sumOver fun text _ => context.length_textBytes text

/-- A text takes a byte at least, for its end. -/
theorem textSize_pos (context : Context) (text : String) : 1 ≤ context.textSize text := by
  rw [textSize]
  cases context.layout <;> simp [TextLayout.encodedLength]

end Context

/-- The forms of texts. -/
def TextForm (context : Context) : Form String := fun bytes text =>
  context.Writable text ∧ bytes = context.textBytes text

theorem Reader.accepts_textBytes {marks : List Nat} (layout : TextLayout) :
    Accepts marks (textBytes layout) fun front encoded =>
      layout.Admits encoded ∧ front = Writer.delimited layout encoded := by
  cases layout with
  | nulTerminated => exact accepts_terminated
  | lengthPrefixed =>
      refine accepts_counted.congr fun front encoded => ?_
      constructor
      · rintro ⟨length, counted, rfl⟩
        have bound := length.toNat_lt
        refine ⟨by simp only [TextLayout.Admits]; omega, ?_⟩
        rw [Writer.delimited, counted, UInt16.ofNat_toNat]
      · rintro ⟨admitted, rfl⟩
        have small : encoded.length < 65536 := Nat.lt_succ_of_le admitted
        exact ⟨UInt16.ofNat encoded.length, by rw [UInt16.toNat_ofNat_of_lt' small], rfl⟩

theorem Reader.accepts_text {marks : List Nat} (context : Context) :
    Accepts marks (text context) (TextForm context) := by
  have composed : Accepts marks _ _ := (accepts_textBytes context.layout).bind fun raw =>
    accepts_ofExcept (context.encoding.decode raw)
  refine Accepts.congr composed fun front value => ?_
  simp only [TextEncoding.decode_eq_ok_iff]
  constructor
  · rintro ⟨_, _, _, ⟨admitted, rfl⟩, ⟨rfl, covered, rfl⟩, rfl⟩
    exact ⟨⟨covered, admitted⟩, by rw [List.append_nil, Context.textBytes]⟩
  · rintro ⟨⟨covered, admitted⟩, rfl⟩
    exact ⟨_, [], _, ⟨admitted, rfl⟩, ⟨rfl, covered, rfl⟩,
      by rw [List.append_nil, Context.textBytes]⟩

theorem Writer.emits_text (context : Context) (value : String) :
    Emits (text context value) (context.Writable value) (context.textBytes value) () := by
  have encoded : Emits (ofExcept (context.encoding.encode value)) (context.encoding.Covers value) []
      (context.encoding.rawBytes value) := by
    refine emits_ofExcept ?_ fun result encodes =>
      ((context.encoding.encode_eq_ok_iff value result).mp encodes).2
    rw [TextEncoding.encode_eq_ok_iff]
    simp
  have checked : Emits (ofExcept (context.layout.check (context.encoding.rawBytes value)))
      (context.layout.Admits (context.encoding.rawBytes value)) [] () :=
    emits_ofExcept (TextLayout.check_eq_ok_iff ..) fun _ _ => rfl
  have composed := encoded.bind
    (fun raw => do
      ofExcept (context.layout.check raw)
      block (delimited context.layout raw))
    (checked.andThen (emits_block (delimited context.layout (context.encoding.rawBytes value))))
  refine Emits.congr composed ?_
  simp [Context.Writable]

end ActionStream
