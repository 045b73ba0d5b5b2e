import ActionStream.Proofs.Action.Concatenation
import ActionStream.Proofs.Action.Failures

/-!
# Any run of operations on a reader

A caller holds a cursor and asks for one thing after another: numbers, byte strings, texts, marks,
or whole operands, actions and regions.  An operation that fails leaves a cursor behind as well, and
the caller can go on from there.  Whatever was asked before, the cursor stays inside the input and
behind its marks, so that neither the number of bytes that are left nor the number of bytes since a
mark is ever negative.  What one operation does to a sound cursor is shown for each of them; that
every cursor of a run is sound then follows by induction on the run.
-/

namespace ActionStream

namespace Cursor

/-- The cursor is a position in the given input, and its marks are earlier positions, the inner ones
never before the outer ones. -/
structure Sound (bytes : List UInt8) (cursor : Cursor) : Prop where
  unread_eq : cursor.unread = bytes.drop cursor.position
  position_le : cursor.position ≤ bytes.length
  marks_le : ∀ start ∈ cursor.marks, start ≤ cursor.position
  ordered : cursor.marks.Pairwise fun inner outer => outer ≤ inner

variable {bytes : List UInt8} {cursor moved : Cursor}

theorem sound_ofBytes (bytes : List UInt8) : (ofBytes bytes).Sound bytes :=
  ⟨rfl, Nat.zero_le _, by simp [ofBytes], by simp [ofBytes]⟩

theorem Follows.position_le (follows : cursor.Follows moved) :
    cursor.position ≤ moved.position := by
  obtain ⟨taken, rest, -, rfl⟩ := follows
  exact Nat.le_add_right ..

namespace Sound

theorem position_add_remaining (sound : cursor.Sound bytes) :
    cursor.position + cursor.remaining = bytes.length := by
  have inside := sound.position_le
  rw [remaining, sound.unread_eq, List.length_drop]
  omega

/-- The innermost mark and the bytes read since then make up the position. -/
theorem start_add_sinceMark (sound : cursor.Sound bytes) {start : Nat}
    (innermost : start ∈ cursor.marks.head?) : start + cursor.sinceMark = cursor.position := by
  have passed := sound.marks_le start (List.mem_of_mem_head? innermost)
  obtain ⟨unread, position, marks⟩ := cursor
  cases marks with
  | nil => cases innermost
  | cons first outer =>
      cases innermost
      exact Nat.add_sub_of_le passed

theorem of_follows (sound : cursor.Sound bytes) (follows : cursor.Follows moved) :
    moved.Sound bytes := by
  obtain ⟨taken, rest, split, rfl⟩ := follows
  have unreadEq := sound.unread_eq
  have total := sound.position_add_remaining
  rw [remaining, split, List.length_append] at total
  constructor
  · have further := congrArg (List.drop taken.length) (split.symm.trans unreadEq)
    rwa [List.drop_left, List.drop_drop] at further
  · simp only [advance]
    omega
  · intro start member
    exact Nat.le_add_right_of_le (sound.marks_le start member)
  · exact sound.ordered

theorem mark (sound : cursor.Sound bytes) : cursor.mark.Sound bytes where
  unread_eq := sound.unread_eq
  position_le := sound.position_le
  marks_le := by
    rintro start (- | ⟨-, member⟩)
    · exact Nat.le_refl _
    · exact sound.marks_le start member
  ordered := .cons sound.marks_le sound.ordered

theorem unmark (sound : cursor.Sound bytes) : cursor.unmark.Sound bytes where
  unread_eq := sound.unread_eq
  position_le := sound.position_le
  marks_le start member := sound.marks_le start (List.mem_of_mem_tail member)
  ordered := sound.ordered.tail

end Sound

end Cursor

namespace Reader

section EndsInPlace

variable {α β : Type} {read : Reader α}

theorem EndsInPlace.map {function : α → β} (inPlace : EndsInPlace read) :
    EndsInPlace (function <$> read) := by
  intro cursor error moved failure
  rw [map_apply] at failure
  split at failure
  · cases failure
  next stopped =>
    cases failure
    exact inPlace _ _ _ stopped

theorem endsInPlace_skip (count : Nat) : EndsInPlace (skip count) := by
  rw [skip_eq_map]
  exact (endsInPlace_take count "skipped bytes").map

theorem Accepts.position_lt {form : Form α} (accepts : ∀ marks, Accepts marks read form)
    (nonempty : ∀ front value, form front value → front ≠ []) {cursor moved : Cursor} {value : α}
    (success : read cursor = .ok value moved) : cursor.position < moved.position := by
  obtain ⟨front, rest, formed, -, rfl⟩ := (accepts cursor.marks _ _ _ _).mp success
  exact Nat.lt_add_of_pos_right (List.length_pos_iff.mpr (nonempty front value formed))

end EndsInPlace

/-- What a caller can ask of a reader. -/
inductive Operation where
  | byte
  | word16
  | signed16
  | word32
  | signed32
  | block (count : Nat)
  | skip (count : Nat)
  | part (count : Nat) (item : String)
  | text (context : Context)
  | mark
  | unmark
  | operand (context : Context)
  | action (context : Context)
  | region (context : Context) (limit : Nat)
  deriving DecidableEq, Repr

namespace Operation

def Value : Operation → Type
  | byte => UInt8
  | word16 => UInt16
  | signed16 => Int16
  | word32 => UInt32
  | signed32 => Int32
  | block _ => List UInt8
  | skip _ | mark | unmark => Unit
  | part _ _ => Cursor
  | text _ => String
  | operand _ => PushValue
  | action _ => Action
  | region _ _ => List Action

def run : (operation : Operation) → Reader operation.Value
  | byte => Reader.byte
  | word16 => Reader.word16
  | signed16 => Reader.signed16
  | word32 => Reader.word32
  | signed32 => Reader.signed32
  | block count => Reader.block count
  | skip count => Reader.skip count
  | part count item => Reader.part count item
  | text context => Reader.text context
  | mark => modify Cursor.mark
  | unmark => modify Cursor.unmark
  | operand context => PushValue.read context
  | action context => Action.read context
  | region context limit => Action.readRegion context limit

/-- The cursor that an operation leaves behind, whether it succeeds or fails. -/
def after (operation : Operation) (cursor : Cursor) : Cursor :=
  match operation.run cursor with
  | .ok _ left | .error _ left => left

/-- The cursor that a run of operations leaves behind.  It goes on after a failure. -/
def afterAll (operations : List Operation) (cursor : Cursor) : Cursor :=
  operations.foldl (fun reached operation => operation.after reached) cursor

def IsMarking : Operation → Prop
  | mark | unmark => True
  | _ => False

/-- The operations that read a fixed number of bytes. -/
def IsFixed : Operation → Prop
  | byte | word16 | signed16 | word32 | signed32 | block _ | skip _ | part _ _ => True
  | _ => False

/-- The operations that read a value which takes at least one byte. -/
def IsDecode : Operation → Prop
  | operand _ | action _ => True
  | _ => False

section Step

variable {operation : Operation} {cursor : Cursor}

theorem confined_run (unmarking : ¬ operation.IsMarking) :
    Confined (fun _ => True) operation.run := by
  have ends : ∀ item, (fun _ => True) (CodecError.unexpectedEnd item) := fun _ => trivial
  cases operation with
  | byte => exact confined_byte ends
  | word16 => exact confined_word16As ends "u16"
  | signed16 => exact (confined_word16As ends "i16").map
  | word32 => exact confined_word32As ends "u32"
  | signed32 => exact (confined_word32As ends "i32").map
  | block count => exact confined_take ends count "byte block"
  | skip count => exact confined_skip ends count
  | part count item => exact confined_part ends count item
  | text context => exact (confined_text context).mono fun _ _ => trivial
  | mark | unmark => exact absurd trivial unmarking
  | operand context => exact (PushValue.confined_read context).mono fun _ _ => trivial
  | action context => exact (Action.confined_read context).mono fun _ _ => trivial
  | region context limit =>
      intro found
      have confined := Action.confined_regionAt context (deepestNesting - found.depth) limit
      exact (confined.mono fun _ _ => trivial) found

theorem follows_after (unmarking : ¬ operation.IsMarking) :
    cursor.Follows (operation.after cursor) := by
  have confined := confined_run unmarking
  unfold after
  cases outcome : operation.run cursor with
  | ok value left => exact confined.of_ok outcome
  | error error left => exact (confined.of_error outcome).1

theorem sound_after {bytes : List UInt8} (sound : cursor.Sound bytes) :
    (operation.after cursor).Sound bytes := by
  by_cases marking : operation.IsMarking
  · cases operation with
    | mark => exact sound.mark
    | unmark => exact sound.unmark
    | _ => exact marking.elim
  · exact sound.of_follows (follows_after marking)

theorem position_le_after : cursor.position ≤ (operation.after cursor).position := by
  by_cases marking : operation.IsMarking
  · cases operation with
    | mark | unmark => exact Nat.le_refl _
    | _ => exact marking.elim
  · exact (follows_after marking).position_le

/-- An operation that reads a fixed number of bytes fails without moving the cursor. -/
theorem endsInPlace_run (fixed : operation.IsFixed) : EndsInPlace operation.run := by
  cases operation with
  | byte => exact endsInPlace_byte
  | word16 => exact endsInPlace_word16As "u16"
  | signed16 => exact (endsInPlace_word16As "i16").map
  | word32 => exact endsInPlace_word32As "u32"
  | signed32 => exact (endsInPlace_word32As "i32").map
  | block count => exact endsInPlace_take count "byte block"
  | skip count => exact endsInPlace_skip count
  | part count item => exact (endsInPlace_take count item).map
  | _ => exact fixed.elim

theorem position_lt_of_run (decodes : operation.IsDecode) {value : operation.Value}
    {moved : Cursor} (success : operation.run cursor = .ok value moved) :
    cursor.position < moved.position := by
  cases operation with
  | operand context =>
      exact Accepts.position_lt (fun _ => PushValue.accepts_read context) OperandForm.nonempty
        success
  | action context =>
      obtain ⟨front, rest, ⟨form, -⟩, -, rfl⟩ :=
        (Action.accepts_read_inside context cursor.unread cursor.position value moved).mp success
      exact Nat.lt_add_of_pos_right (List.length_pos_iff.mpr (form.nonempty front value))
  | _ => exact decodes.elim

end Step

section Run

variable {bytes : List UInt8} {cursor : Cursor}

theorem sound_afterAll (operations : List Operation) (sound : cursor.Sound bytes) :
    (afterAll operations cursor).Sound bytes := by
  induction operations generalizing cursor with
  | nil => exact sound
  | cons first rest ih => exact ih (sound_after sound)

end Run

/-- A run of operations on an input, and one more operation: the cursor that it finds and the one
that it leaves are sound, and the cursor never moves back.  Only `mark` and `unmark` change the
marks; an operation that reads a fixed number of bytes fails in place; an action or an operand that
is read takes at least a byte. -/
theorem run_sound (bytes : List UInt8) (earlier : List Operation) (next : Operation)
    {found left : Cursor} (reached : afterAll earlier (Cursor.ofBytes bytes) = found)
    (stepped : next.after found = left) :
    (found.Sound bytes ∧ left.Sound bytes ∧ found.position ≤ left.position) ∧
    (left.position + left.remaining = bytes.length ∧
      ∀ start ∈ left.marks.head?, start + left.sinceMark = left.position) ∧
    (¬ next.IsMarking → left.marks = found.marks) ∧
    (next.IsFixed → ∀ error moved, next.run found = .error error moved → moved = found) ∧
    (next.IsDecode → ∀ value moved, next.run found = .ok value moved →
      found.position < moved.position) := by
  subst reached stepped
  have foundSound := sound_afterAll earlier (Cursor.sound_ofBytes bytes)
  have leftSound : (next.after _).Sound bytes := sound_after foundSound
  refine ⟨⟨foundSound, leftSound, position_le_after⟩, ⟨leftSound.position_add_remaining, ?_⟩,
    ?_, ?_, ?_⟩
  · intro start innermost
    exact leftSound.start_add_sinceMark innermost
  · intro unmarking
    exact (follows_after unmarking).marks_eq
  · intro fixed error moved failure
    exact (endsInPlace_run fixed _ error moved failure).1
  · intro decodes value moved success
    exact position_lt_of_run decodes success

/-- A byte, then a region of four bytes in which a push is longer than the input, then an action. -/
def brokenRegionBytes : List UInt8 :=
  [7, 0x94, 2, 0, 4, 0, 0x17, 0x96, 9, 0, 0x06]

/-- A mark is set behind the first byte, and the action behind it fails inside its region.  The mark
stays; from there two bytes cannot be passed over, but one more action is read. -/
theorem run_sound_brokenRegion :
    (afterAll [byte, mark] (Cursor.ofBytes brokenRegionBytes) = ⟨brokenRegionBytes.tail, 1, [1]⟩ ∧
      (action {}).after ⟨brokenRegionBytes.tail, 1, [1]⟩ = ⟨[0x06], 10, [1]⟩ ∧
      Cursor.Sound brokenRegionBytes ⟨[0x06], 10, [1]⟩ ∧ ¬ (action {}).IsMarking) ∧
    (∃ error, (skip 2).run ⟨[0x06], 10, [1]⟩ = .error error ⟨[0x06], 10, [1]⟩) ∧
    ∃ value, (action {}).run ⟨[0x06], 10, [1]⟩ = .ok value ⟨[], 11, [1]⟩ ∧ 10 < 11 := by
  have failing := run_sound brokenRegionBytes [byte, mark] (action {}) rfl rfl
  have skipping := run_sound brokenRegionBytes [byte, mark, action {}] (skip 2) rfl rfl
  have reading := run_sound brokenRegionBytes [byte, mark, action {}] (action {}) rfl rfl
  have tooFew : ∃ error moved, (skip 2).run ⟨[0x06], 10, [1]⟩ = .error error moved := ⟨_, _, rfl⟩
  obtain ⟨error, moved, failure⟩ := tooFew
  obtain rfl : moved = ⟨[0x06], 10, [1]⟩ := skipping.2.2.2.1 trivial error moved failure
  exact ⟨⟨rfl, rfl, failing.1.2.1, id⟩, ⟨error, failure⟩, .basic .play, rfl,
    reading.2.2.2.2 trivial (.basic .play) ⟨[], 11, [1]⟩ rfl⟩

end Operation

end Reader

end ActionStream
