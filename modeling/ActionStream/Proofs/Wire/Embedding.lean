import ActionStream.Proofs.Wire.Accepting

/-!
# Inputs inside longer inputs

An input can stand in a longer one, with bytes before it that have been read and bytes behind it.  A
local reader does the same there as on the input alone, whether it succeeds or fails.  Only one
outcome is left open: where a reader fails because its input ends, it may go on if more bytes
follow.
-/

namespace ActionStream

namespace Cursor

section

variable (offset : Nat) (behind : List UInt8) (cursor : Cursor)

/-- The cursor in a longer input, which has `offset` more bytes before it and `behind` after it. -/
def embed : Cursor :=
  ⟨cursor.unread ++ behind, cursor.position + offset, cursor.marks.map fun mark => mark + offset⟩

@[simp]
theorem depth_embed : (cursor.embed offset behind).depth = cursor.depth := by
  simp [depth, embed]

/-- Positions and marks move by the same distance. -/
@[simp]
theorem sinceMark_embed : (cursor.embed offset behind).sinceMark = cursor.sinceMark := by
  obtain ⟨unread, position, marks⟩ := cursor
  cases marks with
  | nil => rfl
  | cons start marks => exact Nat.add_sub_add_right position offset start

theorem mark_embed : (cursor.embed offset behind).mark = cursor.mark.embed offset behind :=
  rfl

theorem unmark_embed : (cursor.embed offset behind).unmark = cursor.unmark.embed offset behind := by
  obtain ⟨unread, position, marks⟩ := cursor
  cases marks <;> rfl

theorem advance_embed (count : Nat) (rest : List UInt8) :
    (cursor.advance count rest).embed offset behind =
      (cursor.embed offset behind).advance count (rest ++ behind) := by
  simp only [embed, advance, Nat.add_right_comm]

theorem ofBytes_append (bytes : List UInt8) :
    ofBytes (bytes ++ behind) = (ofBytes bytes).embed 0 behind :=
  rfl

end

/-- A cursor without marks stands in the input that it has still to read. -/
theorem eq_embed_ofBytes (unread : List UInt8) (position : Nat) :
    (⟨unread, position, []⟩ : Cursor) = (ofBytes unread).embed position [] := by
  simp [embed, ofBytes]

end Cursor

namespace Reader

open MonadCursor (untilEnd untilEndOnto)

variable {α β : Type}

/-- The same outcome in a longer input. -/
def embedOutcome (offset : Nat) (behind : List UInt8) :
    EStateM.Result CodecError Cursor α → EStateM.Result CodecError Cursor α
  | .ok value moved => .ok value (moved.embed offset behind)
  | .error error moved => .error error (moved.embed offset behind)

/-- The reader fails because the input ends. -/
def EndsEarly (read : Reader α) (cursor : Cursor) : Prop :=
  ∃ item moved, read cursor = .error (.unexpectedEnd item) moved

/-- A reader does the same in a longer input, unless more bytes follow where its input ended. -/
def Local (read : Reader α) : Prop :=
  ∀ offset behind cursor, behind = [] ∨ ¬ EndsEarly read cursor →
    read (cursor.embed offset behind) = embedOutcome offset behind (read cursor)

/-- A reader that succeeds leaves fewer bytes unread. -/
def Shrinks (read : Reader α) : Prop :=
  ∀ cursor value moved, read cursor = .ok value moved → moved.remaining < cursor.remaining

section Combinators

variable {read : Reader α}

theorem not_endsEarly_of_ok {cursor moved : Cursor} {value : α}
    (success : read cursor = .ok value moved) : ¬ EndsEarly read cursor := by
  rintro ⟨item, after, failure⟩
  rw [success] at failure
  cases failure

theorem Local.ok (isLocal : Local read) {cursor moved : Cursor} {value : α}
    (success : read cursor = .ok value moved) (offset : Nat) (behind : List UInt8) :
    read (cursor.embed offset behind) = .ok value (moved.embed offset behind) := by
  have embeds := isLocal offset behind cursor (.inr (not_endsEarly_of_ok success))
  rwa [success] at embeds

theorem local_pure (value : α) : Local (pure value) :=
  fun _ _ _ _ => rfl

theorem local_throw (error : CodecError) : Local (throw error : Reader α) :=
  fun _ _ _ _ => rfl

theorem Local.bind {next : α → Reader β} (first : Local read)
    (second : ∀ value, Local (next value)) : Local (read >>= next) := by
  intro offset behind cursor decided
  cases outcome : read cursor with
  | ok value moved =>
      have sameFirst := first.ok outcome offset behind
      have decidedNext : behind = [] ∨ ¬ EndsEarly (next value) moved := by
        simpa only [EndsEarly, bind_of_ok outcome] using decided
      rw [bind_of_ok outcome, bind_of_ok sameFirst]
      exact second value offset behind moved decidedNext
  | error error moved =>
      have decidedFirst : behind = [] ∨ ¬ EndsEarly read cursor := by
        simpa [EndsEarly, bind_of_error outcome, outcome] using decided
      have sameFirst := first offset behind cursor decidedFirst
      rw [outcome] at sameFirst
      rw [bind_of_error outcome, bind_of_error sameFirst]
      rfl

theorem Local.map {function : α → β} (isLocal : Local read) : Local (function <$> read) :=
  isLocal.bind fun value => local_pure (function value)

theorem Local.ite {condition : Prop} [Decidable condition] {alternative : Reader α}
    (isLocal : Local read) (otherwise : Local alternative) :
    Local (if condition then read else alternative) := by
  by_cases holds : condition
  · simpa only [if_pos holds] using isLocal
  · simpa only [if_neg holds] using otherwise

theorem local_ofExcept (outcome : Except CodecError α) : Local (ofExcept outcome) := by
  cases outcome with
  | ok value => exact local_pure value
  | error error => exact local_throw error

/-- A reader that runs on an input of its own does not look at the outer input at all. -/
theorem local_within (input : Cursor) (read : Reader α) : Local (within input read) := by
  unfold within
  cases read input with
  | ok value left => exact local_pure (value, left)
  | error error left => exact local_throw error

end Combinators

section Primitives

/-- A failure at the end of the input is left open, except where nothing follows. -/
theorem nil_of_endsEarly {read : Reader α} {behind : List UInt8} {cursor moved : Cursor}
    {item : String} (decided : behind = [] ∨ ¬ EndsEarly read cursor)
    (failure : read cursor = .error (.unexpectedEnd item) moved) : behind = [] :=
  decided.resolve_right fun notEarly => notEarly ⟨item, moved, failure⟩

theorem local_byte : Local byte := by
  intro offset behind cursor decided
  obtain ⟨unread, position, marks⟩ := cursor
  cases unread with
  | cons first rest =>
      rw [byte, byte, embedOutcome, Cursor.advance_embed]
      rfl
  | nil =>
      obtain rfl := nil_of_endsEarly decided rfl
      rfl

theorem local_word16As (item : String) : Local (word16As item) := by
  intro offset behind cursor decided
  obtain ⟨unread, position, marks⟩ := cursor
  match unread with
  | first :: second :: rest =>
      rw [word16As, word16As, embedOutcome, Cursor.advance_embed]
      rfl
  | [] | [_] =>
      obtain rfl := nil_of_endsEarly decided rfl
      rfl

theorem local_take (count : Nat) (item : String) : Local (take count item) := by
  intro offset behind cursor decided
  obtain ⟨unread, position, marks⟩ := cursor
  by_cases enough : count ≤ unread.length
  · have taken : (unread.take count).length = count := List.length_take_of_le enough
    have front := take_append item (unread.take count) (unread.drop count) position marks
    have frontEmbedded := take_append item (unread.take count) (unread.drop count ++ behind)
      (position + offset) (marks.map fun mark => mark + offset)
    rw [taken, List.take_append_drop] at front
    rw [taken, ← List.append_assoc, List.take_append_drop] at frontEmbedded
    rw [front, Cursor.embed, frontEmbedded, embedOutcome, Cursor.embed, Nat.add_right_comm]
  · have short : (⟨unread, position, marks⟩ : Cursor).remaining < count :=
      Nat.lt_of_not_le enough
    obtain rfl := nil_of_endsEarly decided (take_of_length_lt item short)
    have shortEmbedded :
        ((⟨unread, position, marks⟩ : Cursor).embed offset []).remaining < count := by
      simpa [Cursor.embed, Cursor.remaining] using enough
    rw [take_of_length_lt item short, take_of_length_lt item shortEmbedded]
    rfl

theorem local_part (count : Nat) (item : String) : Local (part count item) :=
  (local_take count item).map

theorem local_skip (count : Nat) : Local (skip count) := by
  rw [skip_eq_map]
  exact (local_take count "skipped bytes").map

end Primitives

section Repetition

variable {read : Reader α}

/-- The values found before a loop stand in front of those that it finds. -/
theorem untilEndOnto_eq_map (found : List α) (rounds : Nat) :
    untilEndOnto read found rounds =
      (fun more => found.reverse ++ more) <$> untilEndOnto read [] rounds := by
  induction rounds generalizing found with
  | zero => simp [untilEndOnto]
  | succ rounds ih =>
      simp only [untilEndOnto, map_bind]
      congr
      funext cursor
      cases cursor.atEnd with
      | true => simp
      | false => simp [ih (_ :: _)]

theorem untilEnd_of_atEnd (read : Reader α) {cursor : Cursor} (atEnd : cursor.atEnd = true) :
    untilEnd read cursor = .ok [] cursor :=
  untilEndOnto_of_atEnd read [] cursor.remaining atEnd

theorem untilEndOnto_nil_succ (rounds : Nat) {cursor : Cursor}
    (notAtEnd : ¬ cursor.atEnd = true) :
    untilEndOnto read [] (rounds + 1) cursor =
      (read >>= fun value => (fun more => value :: more) <$> untilEndOnto read [] rounds) cursor := by
  have found (value : α) : untilEndOnto read [value] rounds =
      (fun more => value :: more) <$> untilEndOnto read [] rounds :=
    untilEndOnto_eq_map [value] rounds
  rw [untilEndOnto_succ, if_neg notAtEnd]
  simp only [found]

theorem remaining_pos {cursor : Cursor} (notAtEnd : ¬ cursor.atEnd = true) :
    1 ≤ cursor.remaining := by
  have nonempty : cursor.unread ≠ [] := by simpa [Cursor.atEnd] using notAtEnd
  exact List.length_pos_iff.mpr nonempty

/-- With a round for every unread byte, the rounds do not run out before the input. -/
theorem Shrinks.untilEndOnto_nil_congr (shrinks : Shrinks read) {rounds otherRounds : Nat}
    {cursor : Cursor} (enough : cursor.remaining ≤ rounds)
    (alsoEnough : cursor.remaining ≤ otherRounds) :
    untilEndOnto read [] rounds cursor = untilEndOnto read [] otherRounds cursor := by
  induction rounds generalizing otherRounds cursor with
  | zero =>
      have atEnd : cursor.atEnd = true := by
        simpa [Cursor.remaining, Cursor.atEnd] using enough
      rw [untilEndOnto_of_atEnd read [] 0 atEnd, untilEndOnto_of_atEnd read [] otherRounds atEnd]
  | succ rounds ih =>
      by_cases atEnd : cursor.atEnd = true
      · rw [untilEndOnto_of_atEnd read [] _ atEnd, untilEndOnto_of_atEnd read [] otherRounds atEnd]
      · have positive := remaining_pos atEnd
        obtain ⟨otherRounds, rfl⟩ : ∃ fewer, otherRounds = fewer + 1 :=
          Nat.exists_eq_add_one.mpr (by omega)
        rw [untilEndOnto_nil_succ rounds atEnd, untilEndOnto_nil_succ otherRounds atEnd]
        cases outcome : read cursor with
        | error error moved => rw [bind_of_error outcome, bind_of_error outcome]
        | ok value moved =>
            have shorter := shrinks cursor value moved outcome
            have sameRest := @ih otherRounds moved (by omega) (by omega)
            rw [bind_of_ok outcome, bind_of_ok outcome, map_apply, map_apply, sameRest]

/-- Reading up to the end is reading once, then up to the end. -/
theorem Shrinks.untilEnd_of_not_atEnd (shrinks : Shrinks read) {cursor : Cursor}
    (notAtEnd : ¬ cursor.atEnd = true) :
    untilEnd read cursor =
      (read >>= fun value => (fun more => value :: more) <$> untilEnd read) cursor := by
  have positive := remaining_pos notAtEnd
  change untilEndOnto read [] cursor.remaining cursor = _
  rw [shrinks.untilEndOnto_nil_congr (Nat.le_refl _) (Nat.le_succ _),
    untilEndOnto_nil_succ _ notAtEnd]
  cases outcome : read cursor with
  | error error moved => rw [bind_of_error outcome, bind_of_error outcome]
  | ok value moved =>
      have shorter := shrinks cursor value moved outcome
      have sameRest : untilEndOnto read [] cursor.remaining moved = untilEnd read moved :=
        shrinks.untilEndOnto_nil_congr (Nat.le_of_lt shorter) (Nat.le_refl _)
      rw [bind_of_ok outcome, bind_of_ok outcome, map_apply, map_apply, sameRest]

/-- Bytes that were read before a loop starts do not change what it does. -/
theorem Local.untilEnd_embed (isLocal : Local read) (shrinks : Shrinks read) (offset : Nat)
    (cursor : Cursor) :
    untilEnd read (cursor.embed offset []) = embedOutcome offset [] (untilEnd read cursor) := by
  induction sizeEq : cursor.remaining using Nat.strongRecOn generalizing cursor with
  | ind size ih =>
      subst sizeEq
      have sameEnd : (cursor.embed offset []).atEnd = cursor.atEnd := by
        simp [Cursor.embed, Cursor.atEnd]
      by_cases atEnd : cursor.atEnd = true
      · rw [untilEnd_of_atEnd read atEnd, untilEnd_of_atEnd read (sameEnd.trans atEnd)]
        rfl
      · have embeddedNotAtEnd : ¬ (cursor.embed offset []).atEnd = true := by rwa [sameEnd]
        have sameFirst := isLocal offset [] cursor (.inl rfl)
        rw [shrinks.untilEnd_of_not_atEnd atEnd, shrinks.untilEnd_of_not_atEnd embeddedNotAtEnd]
        cases outcome : read cursor with
        | error error moved =>
            rw [outcome] at sameFirst
            rw [bind_of_error outcome, bind_of_error sameFirst]
            rfl
        | ok value moved =>
            have sameRest := ih _ (shrinks cursor value moved outcome) moved rfl
            rw [outcome] at sameFirst
            rw [bind_of_ok outcome, bind_of_ok sameFirst, map_apply, map_apply, sameRest]
            cases untilEnd read moved <;> rfl

end Repetition

end Reader

end ActionStream
