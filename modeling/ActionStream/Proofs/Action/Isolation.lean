import ActionStream.Proofs.Action.Failures

/-!
# Regions apart from the bytes around them

A region is read from the whole input that is left, and only the bytes counted since its mark end
it.  It is nevertheless decoded exactly as its own bytes are when they stand alone, as far as the
regions that are already open leave enough levels.
-/

namespace ActionStream

namespace Action

variable {context : Context}

/-- A region that is read is a stream of its own, inside one more open region. -/
theorem readRegion_eq_ok_iff (limit : Nat) (cursor moved : Cursor) (actions : List Action) :
    readRegion context limit cursor = .ok actions moved ↔
      ∃ front rest, front.length = limit ∧ cursor.unread = front ++ rest ∧
        Stream context front actions ∧
        openNesting actions ≤ deepestNesting - cursor.depth ∧
        moved = cursor.advance limit rest := by
  obtain ⟨unread, position, marks⟩ := cursor
  have accepts := @accepts_regionAt marks context (deepestNesting - marks.length) limit
  rw [readRegion_apply, Cursor.depth, accepts]
  constructor
  · rintro ⟨front, rest, ⟨rfl, stream, nests⟩, rfl, rfl⟩
    exact ⟨front, rest, rfl, rfl, stream, nests, rfl⟩
  · rintro ⟨front, rest, rfl, split, stream, nests, rfl⟩
    exact ⟨front, rest, ⟨rfl, stream, nests⟩, split, rfl⟩

/-- The levels that are left for a region suffice if its actions alone do not nest too deep and an
open region for them is allowed. -/
theorem openNesting_le_iff {front : List UInt8} {actions : List Action} {depth : Nat}
    (stream : Stream context front actions) :
    openNesting actions ≤ deepestNesting - depth ↔
      listNesting actions ≤ deepestNesting ∧
        (front.length = 0 ∨ depth + 1 + listNesting actions ≤ deepestNesting) := by
  cases stream with
  | nil => simp [openNesting, listNesting]
  | @cons front rest first others form stream =>
      have positive := List.length_pos_iff.mpr (form.nonempty front first)
      rw [openNesting, listNesting, List.length_append]
      omega

/-- A region is decoded as its bytes alone are, if one more region and those inside may be open.  It
moves the cursor behind its bytes.  Whether it succeeds or fails, the marks stay; and a region that
is reported as overrun, itself or one inside, is longer than it was declared. -/
theorem readRegion_isolated (context : Context) (limit : Nat) (cursor : Cursor) :
    (limit ≤ cursor.remaining → ∀ actions,
      (∃ moved, readRegion context limit cursor = .ok actions moved) ↔
        decodeAll context (cursor.unread.take limit) = .ok actions ∧
          (limit = 0 ∨ cursor.depth + 1 + listNesting actions ≤ deepestNesting)) ∧
    (∀ actions moved, readRegion context limit cursor = .ok actions moved →
      moved = cursor.advance limit (cursor.unread.drop limit)) ∧
    ∀ error moved, readRegion context limit cursor = .error error moved →
      moved.marks = cursor.marks ∧
        ∀ declared consumed, error = .frameOverrun declared consumed → declared < consumed := by
  refine ⟨?_, ?_, ?_⟩
  · intro inside actions
    have taken : (cursor.unread.take limit).length = limit := List.length_take_of_le inside
    have decoded : decodeAll context (cursor.unread.take limit) = .ok actions ↔
        Stream context (cursor.unread.take limit) actions ∧
          listNesting actions ≤ deepestNesting :=
      ⟨stream_of_decodeAll, fun accepted => decodeAll_of_stream accepted.1 accepted.2⟩
    rw [decoded]
    constructor
    · rintro ⟨moved, success⟩
      obtain ⟨front, rest, rfl, split, stream, nests, -⟩ :=
        (readRegion_eq_ok_iff limit cursor moved actions).mp success
      have sameFront : cursor.unread.take front.length = front := by
        rw [split, List.take_left]
      obtain ⟨shallow, fits⟩ := (openNesting_le_iff stream).mp nests
      rw [sameFront]
      exact ⟨⟨stream, shallow⟩, fits⟩
    · rintro ⟨⟨stream, shallow⟩, fits⟩
      have nests := (openNesting_le_iff stream).mpr ⟨shallow, by rwa [taken]⟩
      exact ⟨_, (readRegion_eq_ok_iff limit cursor _ actions).mpr
        ⟨_, _, taken, (List.take_append_drop limit cursor.unread).symm, stream, nests, rfl⟩⟩
  · intro actions moved success
    obtain ⟨front, rest, rfl, split, -, -, rfl⟩ :=
      (readRegion_eq_ok_iff limit cursor moved actions).mp success
    rw [split, List.drop_left]
  · intro error moved failure
    have confined := confined_regionAt context (deepestNesting - cursor.depth) limit
    obtain ⟨follows, ofStream⟩ := confined.of_error failure
    refine ⟨follows.marks_eq, ?_⟩
    rintro declared consumed rfl
    exact ofStream

/-- A handler of fourteen bytes and a byte behind it, with two regions open. -/
def handlerCursor : Cursor :=
  ⟨[0x8F, 9, 0, 3, 1, 0, 0, 0, 1, 0, 101, 0, 0x17, 0x3E, 0x06], 9, [7, 2]⟩

def handler : List Action :=
  [.block (.tryCatch [.basic .pop] (.name "e") [] [.basic .returnValue])]

/-- As a region of fourteen bytes the handler is read, as one of thirteen bytes it is overrun. -/
theorem readRegion_isolated_handler :
    (14 ≤ handlerCursor.remaining ∧ ∃ moved, readRegion {} 14 handlerCursor = .ok handler moved) ∧
      ∃ moved, readRegion {} 13 handlerCursor = .error (.frameOverrun 13 14) moved ∧
        moved.marks = [7, 2] ∧ 13 < 14 := by
  have inside : 14 ≤ handlerCursor.remaining := by decide
  have decodes := (readRegion_isolated {} 14 handlerCursor).1 inside handler
  have fails := (readRegion_isolated {} 13 handlerCursor).2.2
  have overrun : readRegion {} 13 handlerCursor =
      .error (.frameOverrun 13 14) ⟨[0x06], 23, [7, 2]⟩ := rfl
  obtain ⟨sameMarks, longer⟩ := fails _ _ overrun
  exact ⟨⟨inside, decodes.mpr ⟨rfl, .inr (by decide)⟩⟩, _, overrun, sameMarks, longer 13 14 rfl⟩

end Action

end ActionStream
