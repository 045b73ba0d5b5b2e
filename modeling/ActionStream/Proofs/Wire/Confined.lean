import ActionStream.Proofs.Wire.Outcome

/-!
# How a reader can fail

A confined reader moves the cursor forward over bytes of its input and leaves the marks as they are,
whether it succeeds or fails, and its failures are all of an admitted kind.  What a composed reader
can fail with is what its parts can fail with.
-/

namespace ActionStream

namespace Cursor

/-- The cursor that has moved on over some of the bytes that are unread at another one. -/
def Follows (cursor moved : Cursor) : Prop :=
  ∃ taken rest, cursor.unread = taken ++ rest ∧ moved = cursor.advance taken.length rest

instance : IsPreorder Cursor Follows where
  refl cursor := ⟨[], cursor.unread, rfl, rfl⟩
  trans := by
    rintro cursor _ _ ⟨front, _, split, rfl⟩ ⟨back, rest, more, rfl⟩
    refine ⟨front ++ back, rest, ?_, ?_⟩
    · rw [split, List.append_assoc]
      exact congrArg (front ++ ·) more
    · rw [List.length_append]
      simp only [advance, Nat.add_assoc]

theorem follows_advance {cursor : Cursor} {taken rest : List UInt8}
    (split : cursor.unread = taken ++ rest) : cursor.Follows (cursor.advance taken.length rest) :=
  ⟨taken, rest, split, rfl⟩

theorem Follows.marks_eq {cursor moved : Cursor} (follows : cursor.Follows moved) :
    moved.marks = cursor.marks := by
  obtain ⟨_, _, -, rfl⟩ := follows
  rfl

/-- What is read with a mark in place moves the cursor on once the mark is dropped. -/
theorem Follows.unmark {cursor moved : Cursor} (follows : cursor.mark.Follows moved) :
    cursor.Follows moved.unmark := by
  obtain ⟨taken, rest, split, rfl⟩ := follows
  exact ⟨taken, rest, split, rfl⟩

end Cursor

namespace Reader

open MonadCursor (untilEnd untilEndOnto)

variable {α β : Type} {admits : CodecError → Prop}

/-- A reader moves on over its input, leaves the marks as they are and fails only in admitted
ways. -/
abbrev Confined (admits : CodecError → Prop) (read : Reader α) : Prop :=
  Moves Cursor.Follows admits read

theorem confined_ofExcept {outcome : Except CodecError α}
    (admitted : ∀ error, outcome = .error error → admits error) :
    Confined admits (ofExcept outcome) := by
  cases outcome with
  | ok value => exact moves_pure value
  | error error => exact moves_throw (admitted error rfl)

/-- The failure of a reader that runs on an input of its own is passed on. -/
theorem confined_within {read : Reader α} (input : Cursor) (confined : Confined admits read) :
    Confined admits (within input read) := by
  unfold within
  cases outcome : read input with
  | ok value left => exact moves_pure (value, left)
  | error error left => exact moves_throw (confined.of_error outcome).2

/-- A reader that only fails because the input ends, and then does not move. -/
def EndsInPlace (read : Reader α) : Prop :=
  ∀ cursor error moved, read cursor = .error error moved →
    moved = cursor ∧ ∃ item, error = .unexpectedEnd item

section EndsInPlace

theorem endsInPlace_byte : EndsInPlace byte := by
  intro cursor error moved failure
  unfold byte at failure
  split at failure
  · cases failure
  · cases failure
    exact ⟨rfl, "u8", rfl⟩

theorem endsInPlace_word16As (item : String) : EndsInPlace (word16As item) := by
  intro cursor error moved failure
  unfold word16As at failure
  split at failure
  · cases failure
  · cases failure
    exact ⟨rfl, item, rfl⟩

theorem endsInPlace_word32As (item : String) : EndsInPlace (word32As item) := by
  intro cursor error moved failure
  unfold word32As at failure
  split at failure
  · cases failure
  · cases failure
    exact ⟨rfl, item, rfl⟩

theorem endsInPlace_take (count : Nat) (item : String) : EndsInPlace (take count item) := by
  intro cursor error moved failure
  unfold take at failure
  dsimp only at failure
  split at failure
  · cases failure
  · cases failure
    exact ⟨rfl, item, rfl⟩

theorem endsInPlace_terminated : EndsInPlace terminated := by
  intro cursor error moved failure
  unfold terminated at failure
  split at failure
  · cases failure
    exact ⟨rfl, "string terminator", rfl⟩
  · cases failure

end EndsInPlace

section Primitives

variable (ends : ∀ item, admits (.unexpectedEnd item))

include ends

theorem Accepts.confined {read : Reader α} {form : Form α}
    (accepts : ∀ marks, Accepts marks read form) (inPlace : EndsInPlace read) :
    Confined admits read := by
  rintro ⟨unread, position, marks⟩
  cases outcome : read ⟨unread, position, marks⟩ with
  | ok value moved =>
      obtain ⟨front, rest, -, split, rfl⟩ := (accepts marks _ _ _ _).mp outcome
      exact Cursor.follows_advance split
  | error error moved =>
      obtain ⟨rfl, item, rfl⟩ := inPlace _ _ _ outcome
      exact ⟨refl_of Cursor.Follows _, ends item⟩

theorem confined_byte : Confined admits byte :=
  Accepts.confined ends (fun _ => accepts_byte) endsInPlace_byte

theorem confined_word16As (item : String) : Confined admits (word16As item) :=
  Accepts.confined ends (fun _ => accepts_word16As item) (endsInPlace_word16As item)

theorem confined_word32As (item : String) : Confined admits (word32As item) :=
  Accepts.confined ends (fun _ => accepts_word32As item) (endsInPlace_word32As item)

theorem confined_take (count : Nat) (item : String) : Confined admits (take count item) :=
  Accepts.confined ends (fun _ => accepts_take count item) (endsInPlace_take count item)

theorem confined_skip (count : Nat) : Confined admits (skip count) := by
  rw [skip_eq_map]
  exact (confined_take ends count "skipped bytes").map

theorem confined_part (count : Nat) (item : String) : Confined admits (part count item) :=
  (confined_take ends count item).map

theorem confined_terminated : Confined admits terminated :=
  Accepts.confined ends (fun _ => accepts_terminated) endsInPlace_terminated

theorem confined_counted : Confined admits counted := by
  apply (confined_word16As ends "u16").bind
  intro length
  exact confined_take ends length.toNat "string"

theorem confined_textBytes (layout : TextLayout) : Confined admits (textBytes layout) := by
  cases layout with
  | nulTerminated => exact confined_terminated ends
  | lengthPrefixed => exact confined_counted ends

end Primitives

section Repetition

variable {read : Reader α} (confined : Confined admits read)

include confined

theorem confined_repeatedOnto (found : List α) (count : Nat) :
    Confined admits (repeatedOnto read found count) := by
  induction count generalizing found with
  | zero => exact moves_pure found.reverse
  | succ count ih => exact confined.bind fun value => ih (value :: found)

theorem confined_untilEndOnto (found : List α) (rounds : Nat) :
    Confined admits (untilEndOnto read found rounds) := by
  induction rounds generalizing found with
  | zero => exact moves_pure found.reverse
  | succ rounds ih =>
      intro cursor
      rw [untilEndOnto_succ]
      split
      · exact refl_of Cursor.Follows cursor
      · exact confined.bind (fun value => ih (value :: found)) cursor

theorem confined_untilEnd : Confined admits (untilEnd read) :=
  fun cursor => confined_untilEndOnto confined [] cursor.remaining cursor

end Repetition

end Reader

end ActionStream
