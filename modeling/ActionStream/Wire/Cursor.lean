import ActionStream.Context
import ActionStream.Wire.LittleEndian
/-!
# Reading position in a byte string

A cursor holds the bytes that are still unread, the number of bytes read before them and a stack
of marks.  A mark remembers a position, so that the number of bytes read since then can be asked
for; every region that is being read holds one.

A reader is an action on a cursor.  It keeps the cursor also when it fails: what was read before
the failure stays read.
-/

namespace ActionStream

/-- A position in a byte string, with the positions of the marks from the innermost outwards. -/
structure Cursor where
  unread : List UInt8
  position : Nat
  marks : List Nat
  deriving DecidableEq, Repr

namespace Cursor

def ofBytes (bytes : List UInt8) : Cursor :=
  ⟨bytes, 0, []⟩

def remaining (cursor : Cursor) : Nat :=
  cursor.unread.length

def atEnd (cursor : Cursor) : Bool :=
  cursor.unread.isEmpty

def depth (cursor : Cursor) : Nat :=
  cursor.marks.length

/-- The number of bytes read since the innermost mark; zero when nothing is marked. -/
def sinceMark (cursor : Cursor) : Nat :=
  match cursor.marks with
  | [] => 0
  | start :: _ => cursor.position - start

def mark (cursor : Cursor) : Cursor :=
  { cursor with marks := cursor.position :: cursor.marks }

def unmark (cursor : Cursor) : Cursor :=
  { cursor with marks := cursor.marks.tail }

/-- The cursor after `count` further bytes, with `rest` still unread. -/
def advance (cursor : Cursor) (count : Nat) (rest : List UInt8) : Cursor :=
  { cursor with unread := rest, position := cursor.position + count }

@[simp] theorem unmark_mark (cursor : Cursor) : cursor.mark.unmark = cursor := rfl

@[simp] theorem depth_mark (cursor : Cursor) : cursor.mark.depth = cursor.depth + 1 := rfl

@[simp] theorem depth_advance (cursor : Cursor) (count : Nat) (rest : List UInt8) :
    (cursor.advance count rest).depth = cursor.depth := rfl

@[simp] theorem sinceMark_mark (cursor : Cursor) : cursor.mark.sinceMark = 0 := by
  simp [sinceMark, mark]

end Cursor

/-- An action on a cursor that gives a value or fails; the cursor moves in both cases. -/
abbrev Reader (α : Type) := EStateM CodecError Cursor α

namespace Reader

/-- The next `count` bytes; without moving, fails on the named item if there are not as many. -/
def take (count : Nat) (item : String) : Reader (List UInt8) := fun cursor =>
  let (taken, rest) := cursor.unread.splitAt count
  if taken.length = count then .ok taken (cursor.advance count rest)
  else .error (.unexpectedEnd item) cursor

/-- Bytes that stand in front are taken, and what follows them stays unread. -/
theorem take_append (item : String) (front rest : List UInt8) (position : Nat)
    (marks : List Nat) :
    take front.length item ⟨front ++ rest, position, marks⟩ =
      .ok front ⟨rest, position + front.length, marks⟩ := by
  simp [take, List.splitAt_eq, Cursor.advance]

theorem take_of_length_lt (item : String) {count : Nat} {cursor : Cursor}
    (short : cursor.remaining < count) :
    take count item cursor = .error (.unexpectedEnd item) cursor := by
  have bound : cursor.unread.length < count := short
  have shorter : min count cursor.unread.length ≠ count := by omega
  simp [take, List.splitAt_eq, shorter]

def byte : Reader UInt8 := fun cursor =>
  match cursor.unread with
  | first :: rest => .ok first (cursor.advance 1 rest)
  | _ => .error (.unexpectedEnd "u8") cursor

/-- The next two bytes as a word; fails on the named item. -/
def word16As (item : String) : Reader UInt16 := fun cursor =>
  match cursor.unread with
  | first :: second :: rest => .ok (Wire.word16 first second) (cursor.advance 2 rest)
  | _ => .error (.unexpectedEnd item) cursor

def word32As (item : String) : Reader UInt32 := fun cursor =>
  match cursor.unread with
  | first :: second :: third :: fourth :: rest =>
    .ok (Wire.word32 first second third fourth) (cursor.advance 4 rest)
  | _ => .error (.unexpectedEnd item) cursor

def word16 : Reader UInt16 := word16As "u16"

def signed16 : Reader Int16 := UInt16.toInt16 <$> word16As "i16"

def word32 : Reader UInt32 := word32As "u32"

def signed32 : Reader Int32 := UInt32.toInt32 <$> word32As "i32"

def block (count : Nat) : Reader (List UInt8) := take count "byte block"

def skip (count : Nat) : Reader Unit := fun cursor =>
  match take count "skipped bytes" cursor with
  | .ok _ moved => .ok () moved
  | .error error moved => .error error moved

/-- The next `count` bytes as an input of their own, whose end is reported as the named item. -/
def part (count : Nat) (item : String) : Reader Cursor :=
  Cursor.ofBytes <$> take count item

def ofExcept {α : Type} : Except CodecError α → Reader α
  | .ok value => pure value
  | .error error => throw error

/-- The bytes up to the next zero byte, which is passed over; without moving, fails if there is no
zero byte. -/
def terminated : Reader (List UInt8) := fun cursor =>
  match cursor.unread.dropWhile (· != 0) with
  | [] => .error (.unexpectedEnd "string terminator") cursor
  | _ :: rest =>
    let raw := cursor.unread.takeWhile (· != 0)
    .ok raw (cursor.advance (raw.length + 1) rest)

/-- Bytes without a zero are read up to the first zero, which is passed over. -/
theorem terminated_append (raw rest : List UInt8) (position : Nat) (marks : List Nat)
    (noZero : ∀ byte ∈ raw, byte ≠ 0) :
    terminated ⟨raw ++ 0 :: rest, position, marks⟩ =
      .ok raw ⟨rest, position + (raw.length + 1), marks⟩ := by
  have noStop : ∀ byte ∈ raw, (byte != 0) = true := by simpa using noZero
  simp [terminated, List.takeWhile_append_of_pos noStop, List.dropWhile_append_of_pos noStop,
    Cursor.advance]

theorem terminated_of_forall_ne {cursor : Cursor} (noZero : ∀ byte ∈ cursor.unread, byte ≠ 0) :
    terminated cursor = .error (.unexpectedEnd "string terminator") cursor := by
  have noStop : ∀ byte ∈ cursor.unread, (byte != 0) = true := by simpa using noZero
  have nothingLeft : cursor.unread.dropWhile (· != 0) = [] := by
    have skipped : (cursor.unread ++ []).dropWhile (· != 0) = [].dropWhile (· != 0) :=
      List.dropWhile_append_of_pos noStop
    simpa using skipped
  simp [terminated, nothingLeft]

/-- The bytes that the next 16-bit word counts. -/
def counted : Reader (List UInt8) := do
  let length ← word16
  take length.toNat "string"

def textBytes : TextLayout → Reader (List UInt8)
  | .nulTerminated => terminated
  | .lengthPrefixed => counted

def text (context : Context) : Reader String := do
  let raw ← textBytes context.layout
  ofExcept (context.encoding.decode raw)

/-- The values that `read` gives when it is run `count` times, after those found so far. -/
def repeatedOnto {α : Type} (read : Reader α) (found : List α) : Nat → Reader (List α)
  | 0 => pure found.reverse
  | count + 1 => do
    let value ← read
    repeatedOnto read (value :: found) count

def repeated {α : Type} (read : Reader α) (count : Nat) : Reader (List α) :=
  repeatedOnto read [] count

/-- Runs `read` on an input of its own.  The value comes with what is left of that input; the
failure is passed on. -/
def within {α : Type} (input : Cursor) (read : Reader α) : Reader (α × Cursor) :=
  match read input with
  | .ok value left => pure (value, left)
  | .error error _ => throw error

/-- Runs a reader with the current position marked; the mark is dropped at the end, also after a
failure. -/
def marked {α : Type} (read : Reader α) : Reader α := fun cursor =>
  match read cursor.mark with
  | .ok value moved => .ok value moved.unmark
  | .error error moved => .error error moved.unmark

end Reader

/-- A monad that input can be read in: it takes the steps of readers, and it marks the position that
something is read from.  Readers are such a monad; another one can also record what happens. -/
class MonadCursor (m : Type → Type) where
  step {α : Type} : Reader α → m α
  marked {α : Type} : m α → m α

instance : MonadCursor Reader where
  step read := read
  marked := Reader.marked

namespace MonadCursor

variable {m : Type → Type} [Monad m] [MonadCursor m] {α : Type}

/-- The values that `read` gives up to the end of the input, after those found so far.  A reader
that moves the cursor needs no more rounds than there are unread bytes. -/
def untilEndOnto (read : m α) (found : List α) : Nat → m (List α)
  | 0 => pure found.reverse
  | rounds + 1 => do
    if (← step get).atEnd then pure found.reverse
    else
      let value ← read
      untilEndOnto read (value :: found) rounds

def untilEnd (read : m α) : m (List α) := do
  untilEndOnto read [] (← step get).remaining

end MonadCursor

end ActionStream
