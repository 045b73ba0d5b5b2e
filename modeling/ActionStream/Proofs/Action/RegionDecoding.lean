import ActionStream.Proofs.Action.Decoding

/-!
# The decoder accepts the grammar

The region reader of a level accepts the streams in which no more levels of regions are open, by
induction on the level.  A byte string is decoded exactly if it is a stream whose regions do not
nest deeper than the decoder goes.
-/

namespace ActionStream

namespace Action

variable {marks : List Nat}

theorem closeRegion_apply (limit : Nat) (found : List Action) (cursor : Cursor) :
    closeRegion limit found cursor =
      if cursor.sinceMark = limit then .ok found.reverse cursor
      else .error (.frameOverrun limit cursor.sinceMark) cursor := by
  change (if cursor.sinceMark = limit then _ else _ : Reader (List Action)) cursor = _
  split <;> rfl

theorem closeRegion_eq_ok_iff (limit : Nat) (found actions : List Action) (cursor moved : Cursor) :
    closeRegion limit found cursor = .ok actions moved ↔
      cursor.sinceMark = limit ∧ actions = found.reverse ∧ moved = cursor := by
  rw [closeRegion_apply]
  split
  next full => simp [full, eq_comm]
  next notFull => simp [notFull]

theorem fillRegion_succ (read : Reader Action) (limit : Nat) (found : List Action) (rounds : Nat)
    (cursor : Cursor) :
    fillRegion read limit found (rounds + 1) cursor =
      if cursor.sinceMark < limit then
        (read >>= fun action => fillRegion read limit (action :: found) rounds) cursor
      else closeRegion limit found cursor := by
  change (if cursor.sinceMark < limit then _ else _ : Reader (List Action)) cursor = _
  split <;> rfl

/-- Once the limit is reached, a region can only be closed. -/
theorem fillRegion_of_limit_le (read : Reader Action) {limit : Nat} (found : List Action)
    (rounds : Nat) {cursor : Cursor} (reached : limit ≤ cursor.sinceMark) :
    fillRegion read limit found rounds cursor = closeRegion limit found cursor := by
  cases rounds with
  | zero => rfl
  | succ rounds => rw [fillRegion_succ, if_neg (Nat.not_lt.mpr reached)]

/-- The conditions under which a region is opened. -/
theorem openRegion_apply (limit : Nat) (read : Reader (List Action)) (cursor : Cursor) :
    openRegion limit read cursor =
      if limit = 0 then .ok [] cursor
      else if (cursor.unread.take limit).length < limit then
        .error (.unexpectedEnd "framed region") cursor
      else read cursor := by
  change (if limit = 0 then _ else if _ then _ else _ : Reader (List Action)) cursor = _
  split
  · rfl
  · split <;> rfl

theorem marked_eq_ok_iff {α : Type} (read : Reader α) (cursor moved : Cursor) (value : α) :
    Reader.marked read cursor = .ok value moved ↔
      ∃ inner, read cursor.mark = .ok value inner ∧ inner.unmark = moved := by
  unfold Reader.marked
  cases read cursor.mark <;> simp

section

variable {read : Reader Action} {form : Form Action} {start : Nat}
  (nonempty : ∀ front action, form front action → front ≠ [])

include nonempty

/-- A region that is full holds no further form. -/
theorem fillRegion_eq_ok_iff_of_limit_le {limit position : Nat} (found : List Action) (rounds : Nat)
    (unread : List UInt8) (reached : limit ≤ position - start) (actions : List Action)
    (moved : Cursor) :
    fillRegion read limit found rounds ⟨unread, position, start :: marks⟩ = .ok actions moved ↔
      ∃ front rest more, Sequence form front more ∧ unread = front ++ rest ∧
        actions = found.reverse ++ more ∧ position - start + front.length = limit ∧
        moved = ⟨rest, position + front.length, start :: marks⟩ := by
  rw [fillRegion_of_limit_le read found rounds reached, closeRegion_eq_ok_iff]
  constructor
  · rintro ⟨full, rfl, rfl⟩
    exact ⟨[], unread, [], .nil, rfl, by simp, full, rfl⟩
  · rintro ⟨front, rest, more, sequence, rfl, rfl, full, rfl⟩
    obtain rfl := List.length_eq_zero_iff.mp (by omega : front.length = 0)
    obtain rfl := (Sequence.nil_iff nonempty).mp sequence
    exact ⟨full, List.append_nil _, rfl⟩

/-- A region is filled with forms until the bytes since its mark are used up. -/
theorem fillRegion_eq_ok_iff (accepts : Reader.Accepts (start :: marks) read form)
    {limit rounds position : Nat} (found : List Action) (unread : List UInt8)
    (enough : limit ≤ position - start + rounds) (after : start ≤ position)
    (actions : List Action) (moved : Cursor) :
    fillRegion read limit found rounds ⟨unread, position, start :: marks⟩ = .ok actions moved ↔
      ∃ front rest more, Sequence form front more ∧ unread = front ++ rest ∧
        actions = found.reverse ++ more ∧ position - start + front.length = limit ∧
        moved = ⟨rest, position + front.length, start :: marks⟩ := by
  induction rounds generalizing found unread position with
  | zero => exact fillRegion_eq_ok_iff_of_limit_le nonempty found 0 unread enough actions moved
  | succ rounds ih =>
      by_cases reached : limit ≤ position - start
      · exact fillRegion_eq_ok_iff_of_limit_le nonempty found _ unread reached actions moved
      · have notFull : (⟨unread, position, start :: marks⟩ : Cursor).sinceMark < limit :=
          Nat.lt_of_not_le reached
        -- A form that stands in front is not empty, so one round less is enough behind it.
        have enoughBehind : ∀ front action, form front action →
            limit ≤ position + front.length - start + rounds := by
          intro front action first
          have positive := List.length_pos_iff.mpr (nonempty front action first)
          omega
        rw [fillRegion_succ, if_pos notFull, bind_eq_ok_iff]
        constructor
        · rintro ⟨action, between, readFirst, readOthers⟩
          obtain ⟨front, rest, first, rfl, rfl⟩ := (accepts _ _ _ _).mp readFirst
          obtain ⟨more, last, others, sequence, rfl, rfl, full, rfl⟩ :=
            (ih _ _ (enoughBehind front action first) (by omega)).mp readOthers
          refine ⟨front ++ more, last, action :: others, .cons first sequence, by simp, by simp,
            ?_, ?_⟩
          · rw [List.length_append]
            omega
          · rw [List.length_append, Nat.add_assoc]
        · rintro ⟨bytes, last, more, sequence, rfl, rfl, full, rfl⟩
          cases sequence with
          | nil =>
              rw [List.length_nil] at full
              omega
          | @cons front rest action others first sequence =>
              rw [List.length_append] at full
              refine ⟨action, ⟨rest ++ last, position + front.length, start :: marks⟩, ?_, ?_⟩
              · exact (accepts _ _ _ _).mpr ⟨front, rest ++ last, first, by simp, rfl⟩
              · refine (ih _ _ (enoughBehind front action first) (by omega)).mpr
                  ⟨rest, last, others, sequence, rfl, by simp, by omega, ?_⟩
                rw [List.length_append, Nat.add_assoc]

/-- A marked region is filled from its first byte. -/
theorem accepts_marked (accepts : ∀ start, Reader.Accepts (start :: marks) read form)
    (limit : Nat) :
    Reader.Accepts marks (Reader.marked (fillRegion read limit [] limit)) fun front actions =>
      front.length = limit ∧ Sequence form front actions := by
  intro unread position actions moved
  have enough : limit ≤ position - position + limit := by omega
  rw [marked_eq_ok_iff]
  simp only [Cursor.mark, fillRegion_eq_ok_iff nonempty (accepts position) [] unread enough
    (Nat.le_refl position)]
  constructor
  · rintro ⟨_, ⟨front, rest, more, sequence, rfl, rfl, full, rfl⟩, rfl⟩
    exact ⟨front, rest, ⟨by omega, sequence⟩, rfl, rfl⟩
  · rintro ⟨front, rest, ⟨full, sequence⟩, rfl, rfl⟩
    exact ⟨_, ⟨front, rest, actions, sequence, rfl, rfl, by omega, rfl⟩, rfl⟩

end

/-- Opening a region changes nothing for a reader of regions of that size; an empty region is the
empty list without being read. -/
theorem accepts_openRegion {limit : Nat} {read : Reader (List Action)} {form : Form (List Action)}
    (empty : ∀ actions, form [] actions ↔ actions = [])
    (accepts : limit ≠ 0 → Reader.Accepts marks read fun front actions =>
      front.length = limit ∧ form front actions) :
    Reader.Accepts marks (openRegion limit read) fun front actions =>
      front.length = limit ∧ form front actions := by
  intro unread position actions moved
  rw [openRegion_apply]
  by_cases isEmpty : limit = 0
  · rw [if_pos isEmpty]
    constructor
    · intro opened
      injection opened with valueEq cursorEq
      subst valueEq cursorEq isEmpty
      exact ⟨[], unread, ⟨rfl, (empty []).mpr rfl⟩, rfl, rfl⟩
    · rintro ⟨front, rest, ⟨full, isForm⟩, rfl, rfl⟩
      obtain rfl := List.length_eq_zero_iff.mp (full.trans isEmpty)
      obtain rfl := (empty actions).mp isForm
      rfl
  · rw [if_neg isEmpty]
    dsimp only
    by_cases short : (unread.take limit).length < limit
    · rw [if_pos short]
      constructor
      · intro opened
        cases opened
      · rintro ⟨front, rest, ⟨rfl, isForm⟩, rfl, rfl⟩
        simp at short
    · rw [if_neg short]
      exact accepts isEmpty unread position actions moved

/-- A region is read at a level exactly if it is a stream in which no more levels are open. -/
theorem accepts_regionAt (context : Context) (levels limit : Nat) :
    Reader.Accepts marks (regionAt context levels limit) fun front actions =>
      front.length = limit ∧ Stream context front actions ∧ openNesting actions ≤ levels := by
  have empty (levels : Nat) (actions : List Action) :
      Stream context [] actions ∧ openNesting actions ≤ levels ↔ actions = [] := by
    rw [Stream.nil_iff]
    constructor
    · exact fun both => both.1
    · rintro rfl
      exact ⟨rfl, Nat.zero_le _⟩
  induction levels generalizing marks limit with
  | zero =>
      refine accepts_openRegion (empty 0) fun notEmpty => ?_
      refine (Reader.accepts_throw _).congr fun front actions => ?_
      rw [false_iff]
      rintro ⟨full, stream, closed⟩
      rw [openNesting_le_zero_iff] at closed
      subst closed
      cases stream
      exact notEmpty full.symm
  | succ levels ih =>
      refine accepts_openRegion (empty (levels + 1)) fun _ => ?_
      have filled := accepts_marked ActionForm.nonempty
        (fun start => accepts_readWith (fun size => @ih (start :: marks) size) context) limit
      refine filled.congr fun front actions => and_congr_right fun _ => ?_
      rw [Sequence.congr fun _ _ => ActionForm.and_nesting_iff, Sequence.and_iff,
        openNesting_le_succ_iff, Stream.iff_sequence]

theorem readRegion_apply (context : Context) (limit : Nat) (cursor : Cursor) :
    readRegion context limit cursor =
      regionAt (m := Reader) context (deepestNesting - cursor.depth) limit cursor :=
  rfl

theorem read_apply (context : Context) (cursor : Cursor) :
    read context cursor =
      readWith (m := Reader) (regionAt context (deepestNesting - cursor.depth)) context cursor :=
  rfl

/-- Every mark stands for an open region, which takes one of the levels. -/
theorem accepts_read_inside (context : Context) :
    Reader.Accepts marks (read context) fun front action =>
      ActionForm context (Stream context) front action ∧
        action.nesting ≤ deepestNesting - marks.length := by
  intro unread position action moved
  have regions := @accepts_regionAt marks context (deepestNesting - marks.length)
  rw [read_apply, Cursor.depth, accepts_readWith regions context]
  simp only [ActionForm.and_nesting_iff]

/-- Outside every region all levels are left. -/
theorem accepts_read (context : Context) :
    Reader.Accepts [] (read context) fun front action =>
      ActionForm context (Stream context) front action ∧ action.nesting ≤ deepestNesting :=
  accepts_read_inside context

theorem decodeAll_eq_ok_iff_sequence (context : Context) (bytes : List UInt8)
    (actions : List Action) :
    decodeAll context bytes = .ok actions ↔
      Sequence (fun front action =>
        ActionForm context (Stream context) front action ∧ action.nesting ≤ deepestNesting)
        bytes actions := by
  have untilEnd (moved : Cursor) := Reader.untilEnd_eq_ok_iff (accepts_read context)
    (fun front action form => ActionForm.nonempty front action form.1) bytes 0 actions moved
  unfold decodeAll Cursor.ofBytes
  cases outcome : MonadCursor.untilEnd (read context) ⟨bytes, 0, []⟩ with
  | error error moved =>
      simp only [outcome, reduceCtorEq, false_iff] at untilEnd ⊢
      exact fun sequence => untilEnd ⟨[], 0 + bytes.length, []⟩ ⟨sequence, rfl⟩
  | ok found moved =>
      simp only [outcome, EStateM.Result.ok.injEq] at untilEnd
      simp only [Except.ok.injEq]
      constructor
      · intro same
        exact ((untilEnd moved).mp ⟨same, rfl⟩).1
      · intro sequence
        exact ((untilEnd _).mpr ⟨sequence, rfl⟩).1

section

variable {context : Context} {bytes : List UInt8} {actions : List Action}

/-- Soundness: what is decoded is a stream of the actions that it is decoded as. -/
theorem stream_of_decodeAll (decoded : decodeAll context bytes = .ok actions) :
    Stream context bytes actions ∧ listNesting actions ≤ deepestNesting := by
  rw [decodeAll_eq_ok_iff_sequence, Sequence.and_iff] at decoded
  exact ⟨Stream.iff_sequence.mpr decoded.1, listNesting_le_iff.mpr decoded.2⟩

/-- Completeness: a stream is decoded, unless too many regions are open at a time. -/
theorem decodeAll_of_stream (stream : Stream context bytes actions)
    (nests : listNesting actions ≤ deepestNesting) : decodeAll context bytes = .ok actions := by
  rw [decodeAll_eq_ok_iff_sequence, Sequence.and_iff]
  exact ⟨Stream.iff_sequence.mp stream, listNesting_le_iff.mp nests⟩

end

/-- A byte string is decoded exactly if the grammar relates it to a list of actions in which at most
64 regions are open at a time. -/
theorem decodeAll_eq_ok_iff (context : Context) (bytes : List UInt8) (actions : List Action) :
    decodeAll context bytes = .ok actions ↔
      Stream context bytes actions ∧ listNesting actions ≤ 64 :=
  ⟨stream_of_decodeAll, fun accepted => decodeAll_of_stream accepted.1 accepted.2⟩

end Action

end ActionStream
