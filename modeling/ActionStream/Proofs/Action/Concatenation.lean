import ActionStream.Proofs.Action.Locality
import ActionStream.Proofs.Action.RoundTrip

/-!
# Streams one behind the other

A byte string is decoded action by action: what is left behind an action is decoded as if it stood
alone.  Decoding a concatenation is therefore decoding its parts in turn, unless the first part ends
inside an action; encoding a concatenation of lists always is encoding its parts in turn.
-/

namespace ActionStream

namespace Action

variable {context : Context}

/-- An action is at least one byte long. -/
theorem shrinks_read (context : Context) : Reader.Shrinks (read context) := by
  intro cursor action moved success
  obtain ⟨unread, position, marks⟩ := cursor
  obtain ⟨front, rest, ⟨form, -⟩, rfl, rfl⟩ :=
    (accepts_read_inside context unread position action moved).mp success
  have positive := List.length_pos_iff.mpr (form.nonempty front action)
  simp only [Cursor.remaining, List.length_append]
  omega

theorem decodeAll_nil : decodeAll context [] = .ok [] :=
  rfl

theorem decodeAll_of_read_error {bytes : List UInt8} {error : CodecError} {moved : Cursor}
    (nonempty : bytes ≠ [])
    (failure : read context (Cursor.ofBytes bytes) = .error error moved) :
    decodeAll context bytes = .error error := by
  have notAtEnd : ¬ (Cursor.ofBytes bytes).atEnd = true := by
    simpa [Cursor.ofBytes, Cursor.atEnd] using nonempty
  have stopped := (shrinks_read context).untilEnd_of_not_atEnd notAtEnd
  rw [bind_of_error failure] at stopped
  rw [decodeAll, stopped]

/-- Behind an action, the rest of the input is decoded as if it stood alone. -/
theorem decodeAll_of_read_ok {bytes : List UInt8} {action : Action} {moved : Cursor}
    (success : read context (Cursor.ofBytes bytes) = .ok action moved) :
    decodeAll context bytes = (fun more => action :: more) <$> decodeAll context moved.unread := by
  obtain ⟨front, rest, ⟨form, -⟩, rfl, rfl⟩ :=
    (accepts_read context bytes 0 action moved).mp success
  have notAtEnd : ¬ (Cursor.ofBytes (front ++ rest)).atEnd = true := by
    simp [Cursor.ofBytes, Cursor.atEnd, form.nonempty front action]
  have started := (shrinks_read context).untilEnd_of_not_atEnd notAtEnd
  have moves := (local_read context).untilEnd_embed (shrinks_read context) (0 + front.length)
    (Cursor.ofBytes rest)
  rw [bind_of_ok success, map_apply, Cursor.eq_embed_ofBytes, moves] at started
  rw [decodeAll, started, decodeAll]
  cases MonadCursor.untilEnd (read context) (Cursor.ofBytes rest) <;> rfl

/-- A concatenation is decoded part by part, unless the first part ends early. -/
theorem decodeAll_append (context : Context) {first : List UInt8} (second : List UInt8)
    (decided : ∀ item, decodeAll context first ≠ .error (.unexpectedEnd item)) :
    decodeAll context (first ++ second) =
      (do
        let actions ← decodeAll context first
        let more ← decodeAll context second
        return actions ++ more) := by
  induction sizeEq : first.length using Nat.strongRecOn generalizing first with
  | ind size ih =>
      subst sizeEq
      by_cases isEmpty : first = []
      · subst isEmpty
        rw [decodeAll_nil, List.nil_append]
        cases decodeAll context second <;> rfl
      have nonempty : first ++ second ≠ [] := by simp [isEmpty]
      cases outcome : read context (Cursor.ofBytes first) with
      | error error moved =>
          have stopped := decodeAll_of_read_error isEmpty outcome
          have notEarly : ¬ Reader.EndsEarly (read context) (Cursor.ofBytes first) := by
            rintro ⟨item, after, failure⟩
            rw [outcome] at failure
            cases failure
            exact decided item stopped
          have sameFailure := local_read context 0 second (Cursor.ofBytes first) (.inr notEarly)
          rw [outcome, ← Cursor.ofBytes_append] at sameFailure
          rw [decodeAll_of_read_error nonempty sameFailure, stopped]
          rfl
      | ok action moved =>
          have shorter : moved.unread.length < first.length := shrinks_read context _ _ _ outcome
          have sameAction := (local_read context).ok outcome 0 second
          rw [← Cursor.ofBytes_append] at sameAction
          rw [decodeAll_of_read_ok outcome] at decided ⊢
          have decidedRest : ∀ item,
              decodeAll context moved.unread ≠ .error (.unexpectedEnd item) := by
            intro item failure
            rw [failure] at decided
            exact decided item rfl
          have rest := ih _ shorter decidedRest rfl
          rw [decodeAll_of_read_ok sameAction, Cursor.embed, rest]
          simp

theorem encodeAll_append_eq_ok_iff (actions more : List Action) (bytes : List UInt8) :
    encodeAll context (actions ++ more) = .ok bytes ↔
      ∃ front back, encodeAll context actions = .ok front ∧ encodeAll context more = .ok back ∧
        bytes = front ++ back := by
  have together : allBytes context (actions ++ more) =
      allBytes context actions ++ allBytes context more := by
    simp only [allBytes_eq_flatMap, List.flatMap_append]
  simp only [encodeAll_eq_ok_iff, throughout_append, together]
  constructor
  · rintro ⟨⟨fits, fitsMore⟩, rfl⟩
    exact ⟨_, _, ⟨fits, rfl⟩, ⟨fitsMore, rfl⟩, rfl⟩
  · rintro ⟨front, back, ⟨fits, rfl⟩, ⟨fitsMore, rfl⟩, rfl⟩
    exact ⟨⟨fits, fitsMore⟩, rfl⟩

/-- Behind a byte string that is decoded, another one is decoded to further actions or fails as it
does alone; a byte string that fails, and not because it ends, fails in the same way whatever stands
behind it.  Two lists are encoded together exactly if each is encoded alone, one behind the
other. -/
theorem decodeAll_append_and_encodeAll_append_iff (context : Context) :
    (∀ first second actions, decodeAll context first = .ok actions →
      (∀ more, decodeAll context second = .ok more →
        decodeAll context (first ++ second) = .ok (actions ++ more)) ∧
      ∀ error, decodeAll context second = .error error →
        decodeAll context (first ++ second) = .error error) ∧
    (∀ first second error, decodeAll context first = .error error →
      (∀ item, error ≠ .unexpectedEnd item) →
        decodeAll context (first ++ second) = .error error) ∧
    ∀ actions more bytes, encodeAll context (actions ++ more) = .ok bytes ↔
      ∃ front back, encodeAll context actions = .ok front ∧ encodeAll context more = .ok back ∧
        bytes = front ++ back := by
  refine ⟨?_, ?_, encodeAll_append_eq_ok_iff⟩
  · intro first second actions decoded
    have notEarly : ∀ item, decodeAll context first ≠ .error (.unexpectedEnd item) := by
      simp [decoded]
    have byParts := decodeAll_append context second notEarly
    rw [decoded] at byParts
    constructor
    · intro more decodedMore
      rw [byParts, decodedMore]
      rfl
    · intro error failure
      rw [byParts, failure]
      rfl
  · intro first second error failure otherwise
    have notEarly : ∀ item, decodeAll context first ≠ .error (.unexpectedEnd item) := by
      simpa [failure] using otherwise
    have byParts := decodeAll_append context second notEarly
    rw [byParts, failure]
    rfl

/-- A region with a pop, then a push of a truth value. -/
def poppingRegionBytes : List UInt8 :=
  [0x94, 2, 0, 1, 0, 0x17, 0x96, 2, 0, 5, 1]

def poppingRegion : List Action :=
  [.block (.withObject [.basic .pop]), .plain (.push [.boolean true])]

/-- A region of one byte with an action of five. -/
def overfullRegionBytes : List UInt8 :=
  [0x94, 2, 0, 1, 0, 0x81, 2, 0, 3, 0]

theorem append_poppingRegion_overfullRegion :
    decodeAll {} (poppingRegionBytes ++ poppingRegionBytes) = .ok (poppingRegion ++ poppingRegion) ∧
      decodeAll {} (poppingRegionBytes ++ overfullRegionBytes) = .error (.frameOverrun 1 5) ∧
      decodeAll {} (overfullRegionBytes ++ poppingRegionBytes) = .error (.frameOverrun 1 5) ∧
      encodeAll {} (poppingRegion ++ poppingRegion) =
        .ok (poppingRegionBytes ++ poppingRegionBytes) := by
  have decoded : decodeAll {} poppingRegionBytes = .ok poppingRegion := rfl
  have overrun : decodeAll {} overfullRegionBytes = .error (.frameOverrun 1 5) := rfl
  have encoded : encodeAll {} poppingRegion = .ok poppingRegionBytes := rfl
  obtain ⟨behindDecoded, behindFailed, together⟩ := decodeAll_append_and_encodeAll_append_iff {}
  exact ⟨(behindDecoded _ _ _ decoded).1 _ decoded, (behindDecoded _ _ _ decoded).2 _ overrun,
    behindFailed _ _ _ overrun (by simp),
    (together _ _ _).mpr ⟨_, _, encoded, encoded, rfl⟩⟩

end Action

end ActionStream
