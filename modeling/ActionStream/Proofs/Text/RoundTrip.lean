import ActionStream.Proofs.Text.Coverage

/-!
# Texts are read as they were written

Between the texts that a context can write and the byte strings that it reads a text from, writing
and reading are inverse to each other.  A text has two chances to be refused, and both come before
anything is written.
-/

namespace ActionStream

namespace Writer

variable {context : Context} {value : String} {buffer after : Buffer} {error : CodecError}

/-- A text that is refused leaves no trace. -/
theorem text_error (failure : text context value buffer = .error error after) :
    after = buffer := by
  unfold text at failure
  cases encoded : context.encoding.encode value with
  | error refusal =>
      rw [encoded] at failure
      cases failure
      rfl
  | ok raw =>
      rw [encoded] at failure
      have failed : (ofExcept (context.layout.check raw) >>= fun _ =>
          block (delimited context.layout raw)) buffer = .error error after := failure
      cases checked : context.layout.check raw with
      | error refusal =>
          rw [checked] at failed
          cases failed
          rfl
      | ok _ =>
          rw [checked] at failed
          cases failed

theorem exists_text_error_iff :
    (∃ error after, text context value buffer = .error error after) ↔
      ¬ context.Writable value := by
  have emits := emits_text context value
  constructor
  · rintro ⟨error, after, failure⟩ writable
    rw [emits.run writable buffer] at failure
    cases failure
  · intro notWritable
    cases outcome : text context value buffer with
    | error error after => exact ⟨error, after, rfl⟩
    | ok result after => exact absurd ((emits buffer result after).mp outcome).1 notWritable

end Writer

namespace Context

/-- What keeps a text from being written: a character without a byte, a character that would be
taken for the end, or more bytes than can be counted. -/
theorem not_writable_iff (context : Context) (text : String) :
    ¬ context.Writable text ↔
      (context.version < 6 ∧ ∃ character ∈ text.toList, 0xFF < character.toNat) ∨
      (context.layout = .nulTerminated ∧ '\x00' ∈ text.toList) ∨
      (context.layout = .lengthPrefixed ∧
        ∃ encoded, context.encoding.encode text = .ok encoded ∧ 65535 < encoded.length) := by
  have uncovered : ¬ context.encoding.Covers text ↔
      context.version < 6 ∧ ∃ character ∈ text.toList, 0xFF < character.toNat := by
    rw [covers_iff]
    simp only [Classical.not_imp, not_forall, Nat.not_le]
  rw [← uncovered, Writable]
  by_cases covered : context.encoding.Covers text
  · simp only [covered, true_and, not_true_eq_false, false_or, TextEncoding.encode_eq_ok_iff,
      exists_eq_left]
    cases context.layout with
    | nulTerminated => simp [TextLayout.Admits, TextEncoding.zero_mem_rawBytes_iff covered]
    | lengthPrefixed => simp [TextLayout.Admits]
  · simp [covered]

end Context

/-- The text that a reader gives and the bytes that it takes are a text and its form. -/
theorem Reader.text_eq_ok {context : Context} {value : String} {cursor moved : Cursor}
    (success : text context cursor = .ok value moved) :
    ∃ consumed, TextForm context consumed value ∧ cursor.unread = consumed ++ moved.unread ∧
      moved.position = cursor.position + consumed.length ∧ moved.marks = cursor.marks := by
  obtain ⟨consumed, rest, form, split, rfl⟩ := (accepts_text context _ _ _ _).mp success
  exact ⟨consumed, form, split, rfl, rfl⟩

/-- What is written for a text is read as this text, whatever follows it, and what a text is read
from is written for it.  A text is refused, without anything being written, exactly if one of its
characters has no byte or would be taken for its end, or if its bytes cannot be counted.  The
shortcut for ASCII characters makes no difference. -/
theorem Context.text_bijective (context : Context) (value : String) (buffer : Buffer) :
    (∀ after, Writer.text context value buffer = .ok () after →
      ∃ bytes, after.toList = buffer.toList ++ bytes ∧ bytes.length = context.textSize value ∧
        ∀ rest position marks, Reader.text context ⟨bytes ++ rest, position, marks⟩ =
          .ok value ⟨rest, position + bytes.length, marks⟩) ∧
    (∀ error after, Writer.text context value buffer = .error error after → after = buffer) ∧
    ((∃ error after, Writer.text context value buffer = .error error after) ↔
      (context.version < 6 ∧ ∃ character ∈ value.toList, 0xFF < character.toNat) ∨
      (context.layout = .nulTerminated ∧ '\x00' ∈ value.toList) ∨
      (context.layout = .lengthPrefixed ∧
        ∃ encoded, context.encoding.encode value = .ok encoded ∧ 65535 < encoded.length)) ∧
    (∀ cursor moved, Reader.text context cursor = .ok value moved →
      ∃ consumed, cursor.unread = consumed ++ moved.unread ∧
        moved.position = cursor.position + consumed.length ∧ moved.marks = cursor.marks ∧
        Writer.text context value buffer = .ok () (buffer.append consumed)) ∧
    TextEncoding.latin1.encode value = TextEncoding.latin1Bytes value [] value.toList := by
  refine ⟨?_, ?_, ?_, ?_, TextEncoding.encode_latin1 value⟩
  · intro after success
    obtain ⟨writable, -, rfl⟩ := (Writer.emits_text context value buffer () after).mp success
    refine ⟨context.textBytes value, Buffer.toList_append .., context.length_textBytes value, ?_⟩
    intro rest position marks
    exact (Reader.accepts_text context _ _ _ _).mpr ⟨_, rest, ⟨writable, rfl⟩, rfl, rfl⟩
  · exact fun error after => Writer.text_error
  · rw [Writer.exists_text_error_iff, not_writable_iff]
  · intro cursor moved success
    obtain ⟨consumed, ⟨writable, rfl⟩, split, position, marks⟩ := Reader.text_eq_ok success
    exact ⟨_, split, position, marks, (Writer.emits_text context value).run writable buffer⟩

/-- Up to version 5 an accented letter has a byte, and the sign of a currency has none. -/
theorem Context.text_bijective_accented :
    (Writer.text { version := 5 } "né" ⟨#[7]⟩ = .ok () ⟨#[7, 0x6E, 0xE9, 0]⟩ ∧
      ∃ bytes, [7, 0x6E, 0xE9, 0] = [7] ++ bytes ∧
        Reader.text { version := 5 } ⟨bytes ++ [0x96], 1, []⟩ =
          .ok "né" ⟨[0x96], 1 + bytes.length, []⟩) ∧
    (∃ consumed, [0x6E, 0xE9, 0, 0x96] = consumed ++ [0x96] ∧
      Writer.text { version := 5 } "né" ⟨#[7]⟩ = .ok () (Buffer.append ⟨#[7]⟩ consumed)) ∧
    ∃ error, Writer.text { version := 5 } "€" ⟨#[7]⟩ = .error error ⟨#[7]⟩ := by
  have written : Writer.text { version := 5 } "né" ⟨#[7]⟩ = .ok () ⟨#[7, 0x6E, 0xE9, 0]⟩ := by rfl
  have read : Reader.text { version := 5 } ⟨[0x6E, 0xE9, 0, 0x96], 1, []⟩ =
      .ok "né" ⟨[0x96], 4, []⟩ := by rfl
  obtain ⟨reads, -, -, writes, -⟩ := text_bijective { version := 5 } "né" ⟨#[7]⟩
  obtain ⟨-, untouched, refused, -⟩ := text_bijective { version := 5 } "€" ⟨#[7]⟩
  obtain ⟨bytes, split, -, again⟩ := reads _ written
  obtain ⟨consumed, front, -, -, same⟩ := writes _ _ read
  obtain ⟨error, after, failure⟩ := refused.mpr (.inl ⟨by decide, '€', by decide, by decide⟩)
  obtain rfl := untouched error after failure
  exact ⟨⟨written, bytes, split, again _ _ _⟩, ⟨consumed, front, same⟩, error, failure⟩

end ActionStream
