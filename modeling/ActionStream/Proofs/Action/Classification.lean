import ActionStream.Proofs.Action.Encodable
import ActionStream.Proofs.Action.Failures

/-!
# Which failures are blamed on the input

Whatever decoding fails with is reported as a fault of the input.  An encoder has no input that could
be at fault, and a size that is refused is reported as a mistake of the caller; but the failure of a
text is the same for a reader and a writer, and counts as a fault of the input in both.  An encoded
list fails with its first action that cannot be encoded.  The sizes in the header of that action are
settled before its texts and before everything inside it, and what is inside an action whose sizes
can be said has sizes that can be said; so the failure is that of a text exactly if the sizes of this
one action are in order.
-/

namespace ActionStream

namespace CodecError

/-- The failure of a size that a length field cannot say. -/
def OfSize : CodecError → Prop
  | bodyTooLarge _ _ => True
  | _ => False

variable {error : CodecError}

theorem OfStream.isDecodeError (ofStream : error.OfStream) : error.isDecodeError = true := by
  cases error with
  | outOfRange | reservedOpcode | bodyTooLarge | lengthMismatch => exact ofStream.elim
  | _ => rfl

theorem OfText.isDecodeError (ofText : error.OfText) : error.isDecodeError = true := by
  cases error with
  | invalidText fault => rfl
  | _ => exact ofText.elim

theorem OfSize.not_isDecodeError (ofSize : error.OfSize) : ¬ error.isDecodeError = true := by
  cases error with
  | bodyTooLarge opcode length => exact Bool.false_ne_true
  | _ => exact ofSize.elim

theorem OfEncoding.isDecodeError_iff (ofEncoding : error.OfEncoding) :
    error.isDecodeError = true ↔ ∃ fault, error = .invalidText fault := by
  cases error with
  | invalidText fault => exact ⟨fun _ => ⟨fault, rfl⟩, fun _ => rfl⟩
  | bodyTooLarge opcode length => simp [CodecError.isDecodeError]
  | _ => exact ofEncoding.elim

end CodecError

open CodecError

namespace Action

/-- The sizes in the header of an action can be said in 16 bits. -/
def Counted (context : Context) (action : Action) : Prop :=
  action.headerLength context ≤ 65535 ∧ ∀ region ∈ action.regions, totalSize context region ≤ 65535

instance (context : Context) : DecidablePred (Counted context) := fun action =>
  inferInstanceAs (Decidable (action.headerLength context ≤ 65535 ∧
    ∀ region ∈ action.regions, totalSize context region ≤ 65535))

/-- An opaque action has no bytes behind a fixed-form opcode. -/
def StandsAlone : Action → Prop
  | unknown opcode body => isFixedForm opcode = true → body = []
  | _ => True

theorem Producible.standsAlone {action : Action} (producible : action.Producible) :
    action.StandsAlone := by
  cases action with
  | unknown opcode body => exact producible.2
  | _ => trivial

variable {context : Context} {action : Action}

section Sizes

theorem headerLength_le_size (alone : action.StandsAlone) :
    action.headerLength context ≤ action.size context := by
  cases action with
  | plain fields => exact Nat.le_add_left ..
  | block fields =>
      rw [headerLength, size]
      omega
  | unknown opcode body =>
      rw [headerLength, size]
      split
      next fixed =>
        rw [alone fixed]
        exact Nat.zero_le _
      next => exact Nat.le_add_left ..
  | basic | call => exact Nat.zero_le _

theorem totalSize_le_size {region : List Action} (member : region ∈ action.regions) :
    totalSize context region ≤ action.size context := by
  cases action with
  | block fields =>
      rw [size, regionsSize_eq_sumOver]
      exact Nat.le_add_left_of_le (le_sumOver_of_mem member)
  | _ => cases member

/-- The sizes inside an action that is not longer than a region may be are in order. -/
theorem counted_of_size_le (alone : action.StandsAlone)
    (short : action.size context ≤ 65535) : action.Counted context :=
  ⟨Nat.le_trans (headerLength_le_size alone) short,
    fun _ member => Nat.le_trans (totalSize_le_size member) short⟩

/-- The sizes inside an action are in order if its own are, since each is at most that of the region
it is in. -/
theorem throughout_counted (alone : Throughout StandsAlone [action])
    (counted : action.Counted context) : Throughout (Counted context) [action] := by
  induction action using induction with
  | block fields ih =>
      refine throughout_block.mpr ⟨counted, fun region member => ?_⟩
      have regionAlone := (throughout_block.mp alone).2 region member
      have short : totalSize context region ≤ 65535 := counted.2 region member
      rw [totalSize_eq_sumOver] at short
      rw [throughout_iff_forall_mem]
      intro inner inside
      have innerAlone := regionAlone.of_mem inside
      exact ih region member inner inside innerAlone
        (counted_of_size_le innerAlone.self (Nat.le_trans (le_sumOver_of_mem inside) short))
  | _ => exact (throughout_single (by simp)).mpr counted

end Sizes

section Failures

theorem appends_writeBlockFields_of_counted {fields : Block (List Action)}
    (counted : (block fields).Counted context) :
    Writer.Appends OfText (writeBlockFields context fields) := by
  intro buffer
  have sizes := Block.emits_visit (emits_regionSize context fields.opcode) fields
  rw [writeBlockFields, bind_of_ok (sizes.run counted.2 buffer), Buffer.append_nil]
  apply Block.appends_write
  rw [Block.headerSize_map]
  exact counted.1

/-- If all sizes in headers can be said, only a text can fail. -/
theorem appends_write_of_throughout_counted (counted : Throughout (Counted context) [action]) :
    Writer.Appends OfText (write context action) := by
  have short : ¬ 65535 < action.headerLength context := Nat.not_lt.mpr counted.self.1
  induction action using induction with
  | basic op => exact Writer.appends_block [op.opcode]
  | plain fields =>
      exact appends_writeHeader fields.opcode (Plain.emits_write context fields)
        (Plain.length_bytes context fields) (fun long => absurd long short) Plain.appends_write
  | block fields ih =>
      apply Moves.bind
      · exact appends_writeHeader fields.opcode (emits_writeBlockFields context fields)
          (length_sizedHeader context fields) (fun long => absurd long short)
          fun _ => appends_writeBlockFields_of_counted counted.self
      · intro _
        apply appends_writeRegions_of_forall
        intro region member
        apply appends_writeAll_of_forall
        intro inner inside
        have innerCounted := ((throughout_block.mp counted).2 region member).of_mem inside
        exact ih region member inner inside innerCounted (Nat.not_lt.mpr innerCounted.self.1)
  | call =>
      apply (Writer.appends_block [callOpcode]).bind
      intro _
      exact Writer.appends_block (Wire.bytesOf16 0)
  | unknown opcode body => exact appends_writeUnknown opcode body fun long => absurd long short

/-- If the sizes in the header of an action can be said, only a text can fail, in the header or
inside. -/
theorem appends_write_of_counted (producible : Throughout Producible [action])
    (counted : action.Counted context) : Writer.Appends OfText (write context action) :=
  appends_write_of_throughout_counted
    (throughout_counted (fun inner within => (producible inner within).standsAlone) counted)

/-- The sizes of the regions are refused before any field of the header is written. -/
theorem appends_writeBlockFields_of_large {fields : Block (List Action)}
    (large : ¬ ∀ region ∈ fields.regions, totalSize context region ≤ 65535) :
    Writer.Appends OfSize (writeBlockFields context fields) := by
  have refuses (region : List Action) :
      Writer.Appends OfSize (regionSize context fields.opcode region) :=
    Moves.ite (moves_pure _) (moves_throw trivial)
  apply (Block.moves_visit refuses fields).bindOk
  intro buffer sized after success
  have sizes := Block.emits_visit (emits_regionSize context fields.opcode) fields
  exact absurd ((sizes buffer sized after).mp success).1 large

/-- If a size in the header of an action cannot be said, this is what writing it fails with. -/
theorem appends_write_of_not_counted (uncounted : ¬ action.Counted context) :
    Writer.Appends OfSize (write context action) := by
  cases action with
  | basic op => exact absurd ⟨Nat.zero_le _, by simp [regions]⟩ uncounted
  | plain fields =>
      exact appends_writeHeader fields.opcode (Plain.emits_write context fields)
        (Plain.length_bytes context fields) (fun _ => trivial)
        fun short => absurd ⟨short, by simp [regions]⟩ uncounted
  | block fields =>
      have emits := emits_writeBlockFields context fields
      have settled := length_sizedHeader context fields
      have header := appends_writeHeader fields.opcode emits settled (fun _ => trivial)
        fun short => appends_writeBlockFields_of_large fun small => uncounted ⟨short, small⟩
      apply header.bindOk
      intro buffer _ after success
      have possible := ((emits_writeHeader fields.opcode emits settled _ _ _).mp success).1
      exact absurd ⟨possible.1, possible.2.1⟩ uncounted
  | call => exact absurd ⟨Nat.zero_le _, by simp [regions]⟩ uncounted
  | unknown opcode body => exact appends_writeUnknown opcode body fun _ => trivial

end Failures

section First

variable {actions before after : List Action}

/-- A list that is not encodable throughout has a first action that is not. -/
theorem exists_first_of_not_throughout {holds : Action → Prop}
    (fails : ¬ Throughout holds actions) :
    ∃ before action after, actions = before ++ action :: after ∧ Throughout holds before ∧
      ¬ Throughout holds [action] := by
  induction actions with
  | nil => exact absurd throughout_nil fails
  | cons first rest ih =>
      by_cases firstHolds : Throughout holds [first]
      · have restFails : ¬ Throughout holds rest :=
          fun restHolds => fails (throughout_cons.mpr ⟨firstHolds, restHolds⟩)
        obtain ⟨before, action, after, rfl, beforeHolds, actionFails⟩ := ih restFails
        exact ⟨first :: before, action, after, rfl, throughout_cons.mpr ⟨firstHolds, beforeHolds⟩,
          actionFails⟩
      · exact ⟨[], first, rest, rfl, throughout_nil, firstHolds⟩

theorem writeAll_append_of_fits (fits : Throughout (Fits context) before) (buffer : Buffer) :
    writeAll context (before ++ after) buffer =
      writeAll context after (buffer.append (allBytes context before)) := by
  induction before generalizing buffer with
  | nil => simp [allBytes]
  | cons first rest ih =>
      obtain ⟨firstFits, restFits⟩ := throughout_cons.mp fits
      have written := (emits_write context first).run firstFits buffer
      rw [List.cons_append, writeAll, bind_of_ok written, ih restFits, allBytes,
        Buffer.append_append]

/-- A list fails as its first action does that cannot be written. -/
theorem write_error_of_encodeAll_error (fits : Throughout (Fits context) before)
    (fails : ¬ Throughout (Fits context) [action]) {error : CodecError}
    (failure : encodeAll context (before ++ action :: after) = .error error) :
    ∃ buffer left, write context action buffer = .error error left := by
  rw [encodeAll, Writer.output, writeAll_append_of_fits fits, writeAll] at failure
  cases outcome : write context action (Buffer.empty.append (allBytes context before)) with
  | ok _ written => exact absurd ((emits_write context action _ _ _).mp outcome).1 fails
  | error cause left =>
      rw [bind_of_error outcome] at failure
      cases failure
      exact ⟨_, left, outcome⟩

end First

/-- What decoding fails with is blamed on the input.  What encoding fails with is, if it is a text;
and this is what it fails with exactly if the sizes of the first action that cannot be encoded can
be said. -/
theorem decodeAll_encodeAll_blamed_iff (context : Context) :
    (∀ bytes error, decodeAll context bytes = .error error → error.isDecodeError = true) ∧
    ∀ actions, Throughout Producible actions → ∀ error,
      encodeAll context actions = .error error →
        (error.isDecodeError = true ↔ ∃ fault, error = .invalidText fault) ∧
        (error.isDecodeError = true ↔
          ∃ before action after, actions = before ++ action :: after ∧
            Throughout (Encodable context) before ∧ ¬ Throughout (Encodable context) [action] ∧
            action.Counted context) := by
  refine ⟨fun _ _ failure => (ofStream_of_decodeAll failure).isDecodeError, ?_⟩
  intro actions producible error failure
  have fits_iff {some : List Action} (someProducible : Throughout Producible some) :
      Throughout (Fits context) some ↔ Throughout (Encodable context) some :=
    forall₂_congr fun action within => fits_iff_encodable (someProducible action within)
  -- Wherever the list is divided before its first action that cannot be encoded, that action fails.
  have failed {before after : List Action} {action : Action}
      (divided : actions = before ++ action :: after)
      (held : Throughout (Encodable context) before)
      (broken : ¬ Throughout (Encodable context) [action]) :
      Throughout Producible [action] ∧
        ∃ buffer left, write context action buffer = .error error left := by
    subst divided
    obtain ⟨beforeProducible, others⟩ := throughout_append.mp producible
    have actionProducible := (throughout_cons.mp others).1
    exact ⟨actionProducible, write_error_of_encodeAll_error ((fits_iff beforeProducible).mpr held)
      (fun fits => broken ((fits_iff actionProducible).mp fits)) failure⟩
  refine ⟨(encodeAll_error failure).isDecodeError_iff, ?_, ?_⟩
  · intro blamed
    have notEncodable : ¬ Throughout (Encodable context) actions := by
      intro encodable
      have encoded := (encodeAll_eq_ok_iff context actions _).mpr
        ⟨(fits_iff producible).mpr encodable, rfl⟩
      rw [failure] at encoded
      cases encoded
    obtain ⟨before, action, after, divided, held, broken⟩ :=
      exists_first_of_not_throughout notEncodable
    obtain ⟨-, buffer, left, stopped⟩ := failed divided held broken
    refine ⟨before, action, after, divided, held, broken, ?_⟩
    by_contra uncounted
    have appends := appends_write_of_not_counted uncounted
    exact (appends.of_error stopped).2.not_isDecodeError blamed
  · rintro ⟨before, action, after, divided, held, broken, counted⟩
    obtain ⟨actionProducible, buffer, left, stopped⟩ := failed divided held broken
    have appends := appends_write_of_counted actionProducible counted
    exact (appends.of_error stopped).2.isDecodeError

/-- A jump to a label inside a region; version 5 has no byte for the character of the label. -/
def uncoveredLabel : List Action :=
  [.basic .pop, .block (.withObject [.plain (.gotoLabel "\u0100")])]

/-- A list that cannot be encoded fails with an error that is blamed on the input. -/
theorem encodeAll_uncoveredLabel :
    Throughout Producible uncoveredLabel ∧
      ∃ error, encodeAll { version := 5 } uncoveredLabel = .error error ∧
        error.isDecodeError = true :=
  ⟨by decide, .invalidText (.notLatin1 '\u0100' "\u0100"), by rfl, by rfl⟩

theorem decodeAll_encodeAll_blamed_uncoveredLabel :
    (decodeAll { version := 5 } [0x96] = .error (.unexpectedEnd "u16") ∧
      (CodecError.unexpectedEnd "u16").isDecodeError = true) ∧
    ∃ error, encodeAll { version := 5 } uncoveredLabel = .error error ∧
      error.isDecodeError = true ∧ ∃ fault, error = .invalidText fault := by
  obtain ⟨decoding, encoding⟩ := decodeAll_encodeAll_blamed_iff { version := 5 }
  have truncated : decodeAll { version := 5 } [0x96] = .error (.unexpectedEnd "u16") := rfl
  have producible : Throughout Producible uncoveredLabel := by decide
  have failure : encodeAll { version := 5 } uncoveredLabel =
      .error (.invalidText (.notLatin1 '\u0100' "\u0100")) := rfl
  obtain ⟨textual, first⟩ := encoding uncoveredLabel producible _ failure
  have blamed := first.mpr ⟨[.basic .pop], _, [], rfl, by decide, by decide, by decide⟩
  exact ⟨⟨truncated, decoding _ _ truncated⟩, _, failure, blamed, textual.mp blamed⟩

end Action

end ActionStream
