import ActionStream.Proofs.Text.Delimited
import ActionStream.Proofs.Wire.Outcome

/-!
# How a writer can fail

An appending writer leaves what has been written before in front of what it writes, whether it
succeeds or fails, and its failures are all of an admitted kind.  A text that is short enough to be
counted fails only for its characters.
-/

namespace ActionStream

/-- The buffer that begins with what another buffer holds. -/
def Buffer.Extends (buffer after : Buffer) : Prop :=
  buffer.toList <+: after.toList

instance : IsPreorder Buffer Buffer.Extends where
  refl buffer := List.prefix_refl buffer.toList
  trans _ _ _ := List.IsPrefix.trans

/-- The failure of a text that the character set does not cover or whose end cannot be marked. -/
def CodecError.OfText : CodecError → Prop
  | invalidText _ => True
  | _ => False

open CodecError

namespace TextEncoding

theorem latin1Bytes_error {text : String} {found : List UInt8} {characters : List Char}
    {error : CodecError} (failure : latin1Bytes text found characters = .error error) :
    error.OfText := by
  induction characters generalizing found with
  | nil => cases failure
  | cons character rest ih =>
      rw [latin1Bytes] at failure
      split at failure
      · exact ih failure
      · cases failure
        trivial

theorem encode_error {encoding : TextEncoding} {text : String} {error : CodecError}
    (failure : encoding.encode text = .error error) : error.OfText := by
  cases encoding with
  | latin1 =>
      rw [encode_latin1] at failure
      exact latin1Bytes_error failure
  | utf8 => cases failure

end TextEncoding

theorem TextLayout.check_error {layout : TextLayout} {encoded : List UInt8} {error : CodecError}
    (short : encoded.length ≤ 65535) (failure : layout.check encoded = .error error) :
    error.OfText := by
  cases layout with
  | nulTerminated =>
      rw [check] at failure
      split at failure
      · cases failure
        trivial
      · cases failure
  | lengthPrefixed =>
      rw [check, if_neg (Nat.not_lt.mpr short)] at failure
      cases failure

namespace Writer

variable {α : Type} {admits : CodecError → Prop}

/-- A writer leaves what is in front of it as it is and fails only in admitted ways. -/
abbrev Appends (admits : CodecError → Prop) (write : Writer α) : Prop :=
  Moves Buffer.Extends admits write

theorem appends_block (bytes : List UInt8) : Appends admits (block bytes) := by
  intro buffer
  change buffer.toList <+: (buffer.append bytes).toList
  rw [Buffer.toList_append]
  exact List.prefix_append ..

theorem appends_ofExcept {outcome : Except CodecError α}
    (admitted : ∀ error, outcome = .error error → admits error) :
    Appends admits (ofExcept outcome) := by
  cases outcome with
  | ok value => exact moves_pure value
  | error error => exact moves_throw (admitted error rfl)

theorem appends_each {write : α → Writer Unit} {values : List α}
    (appends : ∀ value ∈ values, Appends admits (write value)) :
    Appends admits (each write values) := by
  induction values with
  | nil => exact moves_pure ()
  | cons first rest ih =>
      rw [List.forall_mem_cons] at appends
      exact appends.1.bind fun _ => ih appends.2

theorem appends_text {context : Context} {value : String}
    (short : context.textSize value ≤ 65535) : Appends OfText (text context value) := by
  apply (appends_ofExcept fun _ => TextEncoding.encode_error).bindOk
  intro buffer encoded after success
  have encodes : context.encoding.encode value = .ok encoded := by
    cases outcome : context.encoding.encode value <;> rw [outcome] at success <;> cases success
    rfl
  obtain ⟨-, rfl⟩ := (context.encoding.encode_eq_ok_iff value encoded).mp encodes
  have counted : (context.encoding.rawBytes value).length ≤ 65535 := by
    rw [← Context.length_textBytes, Context.textBytes, length_delimited] at short
    cases layout : context.layout <;> rw [layout] at short <;>
      simp only [TextLayout.encodedLength] at short <;> omega
  apply (appends_ofExcept fun _ => TextLayout.check_error counted).bind
  intro _
  exact appends_block _

end Writer

end ActionStream
