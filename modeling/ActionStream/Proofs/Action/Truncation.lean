import ActionStream.Proofs.Action.Concatenation

/-!
# Truncated streams

An action says how long it is before it ends, so a byte string that is cut off inside an action is
never taken for a shorter stream: the end of the input is missed.  A byte string that is cut off
between two actions is decoded as the actions before the cut.
-/

namespace ActionStream

namespace Action

variable {context : Context}

/-- The given actions are the first ones of a byte string and end at the given position. -/
def EndAt (context : Context) (bytes : List UInt8) (position : Nat) (actions : List Action) :
    Prop :=
  ∃ moved, Reader.repeated (read context) actions.length (Cursor.ofBytes bytes) =
    .ok actions moved ∧ moved.position = position

/-- The actions that end where a byte string is cut off are those that the part before it is decoded
as. -/
theorem endAt_iff (front rest : List UInt8) (actions : List Action) :
    EndAt context (front ++ rest) front.length actions ↔
      decodeAll context front = .ok actions := by
  have accepts := Reader.accepts_repeated (accepts_read context) actions.length
  have reads := accepts (front ++ rest) 0 actions
  rw [decodeAll_eq_ok_iff_sequence]
  constructor
  · rintro ⟨moved, success, positionEq⟩
    obtain ⟨bytes, left, ⟨-, sequence⟩, split, rfl⟩ := (reads moved).mp success
    have sameLength : front.length = bytes.length := by
      simpa using positionEq.symm
    obtain ⟨rfl, -⟩ := List.append_inj split sameLength
    exact sequence
  · intro sequence
    exact ⟨_, (reads _).mpr ⟨front, rest, ⟨rfl, sequence⟩, rfl, rfl⟩, Nat.zero_add _⟩

/-- An action is read from bytes of the input. -/
theorem position_le_of_read_ok {bytes : List UInt8} {action : Action} {moved : Cursor}
    (success : read context (Cursor.ofBytes bytes) = .ok action moved) :
    moved.position ≤ bytes.length := by
  obtain ⟨front, rest, -, rfl, rfl⟩ := (accepts_read context bytes 0 action moved).mp success
  simp

/-- An action that is cut off is not read as anything else. -/
theorem read_take_endsEarly {bytes : List UInt8} {action : Action} {moved : Cursor} {length : Nat}
    (success : read context (Cursor.ofBytes bytes) = .ok action moved)
    (inside : length < moved.position) :
    Reader.EndsEarly (read context) (Cursor.ofBytes (bytes.take length)) := by
  by_contra notEarly
  have embeds := local_read context 0 (bytes.drop length) (Cursor.ofBytes (bytes.take length))
    (.inr notEarly)
  rw [← Cursor.ofBytes_append, List.take_append_drop, success] at embeds
  cases outcome : read context (Cursor.ofBytes (bytes.take length)) with
  | error error left =>
      rw [outcome] at embeds
      cases embeds
  | ok other left =>
      have bound := position_le_of_read_ok outcome
      rw [outcome] at embeds
      injection embeds with sameAction sameCursor
      have samePosition : moved.position = left.position := by
        rw [sameCursor]
        rfl
      rw [List.length_take] at bound
      omega

/-- The part of a decoded byte string before a cut is decoded as well unless the cut is noticed. -/
theorem decodeAll_front {front rest : List UInt8} {actions : List Action}
    (decoded : decodeAll context (front ++ rest) = .ok actions)
    (notEarly : ∀ item, decodeAll context front ≠ .error (.unexpectedEnd item)) :
    ∃ first last, actions = first ++ last ∧ decodeAll context front = .ok first := by
  have byParts := decodeAll_append context rest notEarly
  rw [decoded] at byParts
  cases decodedFront : decodeAll context front with
  | error error =>
      rw [decodedFront] at byParts
      cases byParts
  | ok first =>
      cases decodedRest : decodeAll context rest with
      | error error =>
          rw [decodedFront, decodedRest] at byParts
          cases byParts
      | ok last =>
          rw [decodedFront, decodedRest] at byParts
          cases byParts
          exact ⟨first, last, rfl, rfl⟩

/-- Fewer bytes than an action was read from are too few.  A decoded byte string that is cut off is
decoded as the actions before the cut if the cut is behind one of them, and misses the end of its
input otherwise. -/
theorem truncated_endsEarly (context : Context) :
    (∀ bytes action moved, read context (Cursor.ofBytes bytes) = .ok action moved →
      ∀ length < moved.position, ∃ item left,
        read context (Cursor.ofBytes (bytes.take length)) = .error (.unexpectedEnd item) left) ∧
    ∀ front rest actions, decodeAll context (front ++ rest) = .ok actions →
      (∃ first last, actions = first ++ last ∧ decodeAll context front = .ok first ∧
        EndAt context (front ++ rest) front.length first) ∨
      (∃ item, decodeAll context front = .error (.unexpectedEnd item)) ∧
        ∀ first, ¬ EndAt context (front ++ rest) front.length first := by
  constructor
  · intro bytes action moved success length inside
    exact read_take_endsEarly success inside
  · intro front rest actions decoded
    by_cases early : ∃ item, decodeAll context front = .error (.unexpectedEnd item)
    · right
      refine ⟨early, ?_⟩
      intro first ends
      obtain ⟨item, failure⟩ := early
      rw [(endAt_iff front rest first).mp ends] at failure
      cases failure
    · left
      push Not at early
      obtain ⟨first, last, split, decodedFront⟩ := decodeAll_front decoded early
      exact ⟨first, last, split, decodedFront, (endAt_iff front rest first).mpr decodedFront⟩

/-- The popping region is missed from its first five bytes; the push behind it is missed from eight
bytes, and not from six. -/
theorem truncated_endsEarly_poppingRegion :
    (∃ item left, read {} (Cursor.ofBytes (poppingRegionBytes.take 5)) =
      .error (.unexpectedEnd item) left) ∧
    (∃ item, decodeAll {} (poppingRegionBytes.take 8) = .error (.unexpectedEnd item)) ∧
    decodeAll {} (poppingRegionBytes.take 6) = .ok [.block (.withObject [.basic .pop])] := by
  have region : read {} (Cursor.ofBytes poppingRegionBytes) =
      .ok (.block (.withObject [.basic .pop])) ⟨[0x96, 2, 0, 5, 1], 6, []⟩ := rfl
  have decoded : decodeAll {} poppingRegionBytes = .ok poppingRegion := rfl
  obtain ⟨insideAction, cutOff⟩ := truncated_endsEarly {}
  refine ⟨insideAction _ _ _ region 5 (by decide), ?_, ?_⟩
  · rcases cutOff (poppingRegionBytes.take 8) (poppingRegionBytes.drop 8) poppingRegion decoded with
      ⟨first, last, split, decodedFront, ends⟩ | ⟨missed, -⟩
    · cases decodedFront
    · exact missed
  · rcases cutOff (poppingRegionBytes.take 6) (poppingRegionBytes.drop 6) poppingRegion decoded with
      ⟨first, last, split, decodedFront, ends⟩ | ⟨⟨item, failure⟩, -⟩
    · cases decodedFront
      exact rfl
    · cases failure

end Action

end ActionStream
