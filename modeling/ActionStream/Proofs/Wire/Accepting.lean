import ActionStream.Wire.Cursor
import ActionStream.Proofs.Wire.Sequence

/-!
# What a reader accepts

A form relates byte strings to the values that they stand for.  A reader accepts a form when it
succeeds exactly where a byte string of the form stands in front: it gives the value of that byte
string and stops behind it, whatever follows.  Both directions are in one statement, so that the
form of a composed reader is put together from the forms of its parts.
-/

namespace ActionStream

/-- A composed computation succeeds when its first part does and its second part then does. -/
theorem bind_eq_ok_iff {ε σ α β : Type} {first : EStateM ε σ α} {next : α → EStateM ε σ β}
    {state after : σ} {value : β} :
    (first >>= next) state = .ok value after ↔
      ∃ middle between, first state = .ok middle between ∧
        next middle between = .ok value after := by
  change EStateM.bind first next state = _ ↔ _
  unfold EStateM.bind
  cases first state <;> simp

theorem bind_of_ok {ε σ α β : Type} {first : EStateM ε σ α} {next : α → EStateM ε σ β}
    {state between : σ} {middle : α} (success : first state = .ok middle between) :
    (first >>= next) state = next middle between := by
  change EStateM.bind first next state = _
  rw [EStateM.bind, success]

theorem bind_of_error {ε σ α β : Type} {first : EStateM ε σ α} {next : α → EStateM ε σ β}
    {state between : σ} {error : ε} (failure : first state = .error error between) :
    (first >>= next) state = .error error between := by
  change EStateM.bind first next state = _
  rw [EStateM.bind, failure]

theorem map_apply {ε σ α β : Type} (function : α → β) (first : EStateM ε σ α) (state : σ) :
    (function <$> first) state =
      match first state with
      | .ok value after => .ok (function value) after
      | .error error after => .error error after :=
  rfl

theorem map_eq_ok_iff {ε σ α β : Type} {function : α → β} {first : EStateM ε σ α} {state after : σ}
    {value : β} :
    (function <$> first) state = .ok value after ↔
      ∃ middle, first state = .ok middle after ∧ function middle = value := by
  change EStateM.map function first state = _ ↔ _
  unfold EStateM.map
  cases first state with
  | error error between => simp
  | ok middle between => simp [and_comm]

namespace Reader

open MonadCursor (untilEnd untilEndOnto)

/-- On cursors with the given marks, a reader succeeds exactly where a form of its value stands in
front, and then it stops behind that form. -/
def Accepts {α : Type} (marks : List Nat) (read : Reader α) (form : Form α) : Prop :=
  ∀ unread position value moved,
    read ⟨unread, position, marks⟩ = .ok value moved ↔
      ∃ front rest, form front value ∧ unread = front ++ rest ∧
        moved = ⟨rest, position + front.length, marks⟩

section Combinators

variable {α β : Type} {marks : List Nat} {read : Reader α} {form other : Form α}

theorem Accepts.congr (accepts : Accepts marks read form)
    (same : ∀ front value, form front value ↔ other front value) : Accepts marks read other := by
  intro unread position value moved
  simp only [accepts unread position value moved, same]

theorem accepts_pure (value : α) :
    Accepts marks (pure value) fun front result => front = [] ∧ result = value := by
  intro unread position result moved
  change EStateM.Result.ok value _ = _ ↔ _
  constructor
  · intro same
    injection same with valueEq cursorEq
    exact ⟨[], unread, ⟨rfl, valueEq.symm⟩, rfl, cursorEq.symm⟩
  · rintro ⟨front, rest, ⟨rfl, rfl⟩, rfl, rfl⟩
    rfl

theorem accepts_throw (error : CodecError) :
    Accepts marks (throw error : Reader α) fun _ _ => False := by
  intro unread position result moved
  change EStateM.Result.error error _ = _ ↔ _
  simp

theorem Accepts.bind {next : α → Reader β} {second : α → Form β} (first : Accepts marks read form)
    (accepts : ∀ value, Accepts marks (next value) (second value)) :
    Accepts marks (read >>= next) fun bytes result =>
      ∃ front back value, form front value ∧ second value back result ∧ bytes = front ++ back := by
  intro unread position result moved
  rw [bind_eq_ok_iff]
  constructor
  · rintro ⟨value, between, readFirst, readNext⟩
    obtain ⟨front, rest, formFirst, rfl, rfl⟩ := (first _ _ _ _).mp readFirst
    obtain ⟨back, last, formSecond, rfl, rfl⟩ := (accepts value _ _ _ _).mp readNext
    refine ⟨front ++ back, last, ⟨front, back, value, formFirst, formSecond, rfl⟩, ?_, ?_⟩
    · rw [List.append_assoc]
    · rw [List.length_append, Nat.add_assoc]
  · rintro ⟨bytes, last, ⟨front, back, value, formFirst, formSecond, rfl⟩, rfl, rfl⟩
    refine ⟨value, ⟨back ++ last, position + front.length, marks⟩, ?_, ?_⟩
    · exact (first _ _ _ _).mpr ⟨front, back ++ last, formFirst, by simp, rfl⟩
    · exact (accepts value _ _ _ _).mpr
        ⟨back, last, formSecond, rfl, by rw [List.length_append, Nat.add_assoc]⟩

theorem Accepts.map {function : α → β} (accepts : Accepts marks read form) :
    Accepts marks (function <$> read) fun front result =>
      ∃ value, form front value ∧ function value = result := by
  have composed := accepts.bind fun value => accepts_pure (function value)
  refine Accepts.congr composed fun front result => ?_
  constructor
  · rintro ⟨front, back, value, formFirst, ⟨rfl, rfl⟩, rfl⟩
    exact ⟨value, by simpa using formFirst, rfl⟩
  · rintro ⟨value, formFirst, rfl⟩
    exact ⟨front, [], value, formFirst, ⟨rfl, rfl⟩, by simp⟩

/-- The last step of a composed reader, after which only the result is put together. -/
theorem Accepts.andReturn (accepts : Accepts marks read form) (function : α → β) :
    Accepts marks (read >>= fun value => pure (function value)) fun front result =>
      ∃ value, form front value ∧ function value = result :=
  accepts.map

/-- A reader that depends on a condition accepts a form that depends on it in the same way. -/
theorem Accepts.ite {condition : Prop} [Decidable condition] {alternative : Reader α}
    (accepts : condition → Accepts marks read form)
    (otherwise : ¬ condition → Accepts marks alternative other) :
    Accepts marks (if condition then read else alternative) fun front value =>
      if condition then form front value else other front value := by
  by_cases holds : condition
  · simpa only [if_pos holds] using accepts holds
  · simpa only [if_neg holds] using otherwise holds

theorem accepts_ofExcept (outcome : Except CodecError α) :
    Accepts marks (ofExcept outcome) fun front value => front = [] ∧ outcome = .ok value := by
  cases outcome with
  | error error => exact (accepts_throw error).congr (by simp)
  | ok value => exact (accepts_pure value).congr (by simp [eq_comm])

/-- A reader that runs on an input of its own takes nothing from the outer input. -/
theorem accepts_within (input : Cursor) (read : Reader α) :
    Accepts marks (within input read) fun front result =>
      front = [] ∧ read input = .ok result.1 result.2 := by
  unfold within
  cases outcome : read input with
  | error error left => exact (accepts_throw error).congr (by simp)
  | ok value left =>
      refine (accepts_pure (value, left)).congr fun front result => ?_
      simp only [EStateM.Result.ok.injEq, Prod.ext_iff]
      tauto

end Combinators

section Primitives

variable {marks : List Nat}

theorem accepts_byte : Accepts marks byte fun front value => front = [value] := by
  intro unread position value moved
  constructor
  · intro success
    cases unread with
    | nil => simp [byte] at success
    | cons first rest =>
        simp only [byte, Cursor.advance, EStateM.Result.ok.injEq] at success
        obtain ⟨rfl, rfl⟩ := success
        exact ⟨[first], rest, rfl, rfl, rfl⟩
  · rintro ⟨front, rest, rfl, rfl, rfl⟩
    rfl

/-- A form that is never empty is accepted by reading its first byte, then the rest. -/
theorem accepts_led {α : Type} {next : UInt8 → Reader α} {form : Form α}
    (nonempty : ∀ front value, form front value → front ≠ [])
    (accepts : ∀ first, Accepts marks (next first) fun back value => form (first :: back) value) :
    Accepts marks (byte >>= next) form := by
  refine Accepts.congr (accepts_byte.bind accepts) fun bytes value => ?_
  constructor
  · rintro ⟨_, back, first, rfl, formRest, rfl⟩
    exact formRest
  · intro formWhole
    cases bytes with
    | nil => exact absurd rfl (nonempty _ _ formWhole)
    | cons first back => exact ⟨[first], back, first, rfl, formWhole, rfl⟩

theorem accepts_take (count : Nat) (item : String) :
    Accepts marks (take count item) fun front value => value = front ∧ front.length = count := by
  intro unread position value moved
  constructor
  · intro success
    by_cases enough : count ≤ unread.length
    · have taken : (unread.take count).length = count := List.length_take_of_le enough
      have readFront := take_append item (unread.take count) (unread.drop count) position marks
      rw [List.take_append_drop, taken, success] at readFront
      simp only [EStateM.Result.ok.injEq] at readFront
      obtain ⟨rfl, rfl⟩ := readFront
      exact ⟨_, _, ⟨rfl, taken⟩, (List.take_append_drop count unread).symm, by rw [taken]⟩
    · rw [take_of_length_lt item (Nat.lt_of_not_le enough)] at success
      cases success
  · rintro ⟨front, rest, ⟨rfl, rfl⟩, rfl, rfl⟩
    exact take_append item value rest position marks

/-- Bytes without a zero, then a zero that is passed over. -/
theorem accepts_terminated :
    Accepts marks terminated fun front value => 0 ∉ value ∧ front = value ++ [0] := by
  intro unread position value moved
  constructor
  · intro success
    by_cases zero : 0 ∈ unread
    · obtain ⟨raw, rest, rfl, noZero⟩ := List.eq_append_cons_of_mem zero
      rw [terminated_append raw rest position marks
        (fun byte member same => noZero (same ▸ member))] at success
      simp only [EStateM.Result.ok.injEq] at success
      obtain ⟨rfl, rfl⟩ := success
      exact ⟨raw ++ [0], rest, ⟨noZero, rfl⟩, by simp, by simp⟩
    · rw [terminated_of_forall_ne fun byte member same => zero (same ▸ member)] at success
      cases success
  · rintro ⟨front, rest, ⟨noZero, rfl⟩, rfl, rfl⟩
    have readRaw := terminated_append value rest position marks
      (fun byte member same => noZero (same ▸ member))
    simpa using readRaw

theorem accepts_word16As (item : String) :
    Accepts marks (word16As item) fun front value => front = Wire.bytesOf16 value := by
  intro unread position value moved
  constructor
  · intro success
    match unread with
    | [] | [_] => simp [word16As] at success
    | first :: second :: rest =>
        simp only [word16As, Cursor.advance, EStateM.Result.ok.injEq] at success
        obtain ⟨rfl, rfl⟩ := success
        exact ⟨[first, second], rest, (Wire.bytesOf16_word16 first second).symm, rfl, rfl⟩
  · rintro ⟨front, rest, rfl, rfl, rfl⟩
    simp only [Wire.bytesOf16, List.cons_append, List.nil_append, word16As,
      Wire.word16_bytesOf16, Cursor.advance, List.length_cons, List.length_nil]

theorem accepts_word32As (item : String) :
    Accepts marks (word32As item) fun front value => front = Wire.bytesOf32 value := by
  intro unread position value moved
  constructor
  · intro success
    match unread with
    | [] | [_] | [_, _] | [_, _, _] => simp [word32As] at success
    | first :: second :: third :: fourth :: rest =>
        simp only [word32As, Cursor.advance, EStateM.Result.ok.injEq] at success
        obtain ⟨rfl, rfl⟩ := success
        exact ⟨[first, second, third, fourth], rest,
          (Wire.bytesOf32_word32 first second third fourth).symm, rfl, rfl⟩
  · rintro ⟨front, rest, rfl, rfl, rfl⟩
    simp only [Wire.bytesOf32, List.cons_append, List.nil_append, word32As,
      Wire.word32_bytesOf32, Cursor.advance, List.length_cons, List.length_nil]

theorem accepts_signed16 :
    Accepts marks signed16 fun front value => front = Wire.bytesOf16 value.toUInt16 := by
  refine (accepts_word16As "i16").map.congr fun front value => ?_
  constructor
  · rintro ⟨word, rfl, rfl⟩
    rw [UInt16.toUInt16_toInt16]
  · rintro rfl
    exact ⟨value.toUInt16, rfl, Int16.toInt16_toUInt16 value⟩

theorem accepts_signed32 :
    Accepts marks signed32 fun front value => front = Wire.bytesOf32 value.toUInt32 := by
  refine (accepts_word32As "i32").map.congr fun front value => ?_
  constructor
  · rintro ⟨word, rfl, rfl⟩
    rw [UInt32.toUInt32_toInt32]
  · rintro rfl
    exact ⟨value.toUInt32, rfl, Int32.toInt32_toUInt32 value⟩

theorem skip_eq_map (count : Nat) : skip count = (fun _ => ()) <$> take count "skipped bytes" := by
  funext cursor
  change _ = EStateM.map _ _ cursor
  unfold skip EStateM.map
  cases take count "skipped bytes" cursor <;> rfl

theorem accepts_skip (count : Nat) :
    Accepts marks (skip count) fun front _ => front.length = count := by
  rw [skip_eq_map]
  refine (accepts_take count "skipped bytes").map.congr fun front _ => ?_
  simp

theorem accepts_part (count : Nat) (item : String) :
    Accepts marks (part count item) fun front input =>
      input = Cursor.ofBytes front ∧ front.length = count := by
  refine (accepts_take count item).map.congr fun front input => ?_
  constructor
  · rintro ⟨bytes, ⟨rfl, counted⟩, rfl⟩
    exact ⟨rfl, counted⟩
  · rintro ⟨rfl, counted⟩
    exact ⟨front, ⟨rfl, counted⟩, rfl⟩

/-- A 16-bit word and as many bytes as it says. -/
theorem accepts_counted :
    Accepts marks counted fun front value =>
      ∃ length : UInt16, value.length = length.toNat ∧ front = Wire.bytesOf16 length ++ value := by
  have composed : Accepts marks _ _ := (accepts_word16As "u16").bind fun length =>
    accepts_take length.toNat "string"
  refine Accepts.congr composed fun front value => ?_
  constructor
  · rintro ⟨_, _, length, rfl, ⟨rfl, counted⟩, rfl⟩
    exact ⟨length, counted, rfl⟩
  · rintro ⟨length, counted, rfl⟩
    exact ⟨_, _, length, rfl, ⟨rfl, counted⟩, rfl⟩

end Primitives

section Repetition

variable {α : Type} {marks : List Nat} {read : Reader α} {form : Form α}

theorem accepts_repeatedOnto (accepts : Accepts marks read form) (found : List α) (count : Nat) :
    Accepts marks (repeatedOnto read found count) fun front values =>
      ∃ more, more.length = count ∧ values = found.reverse ++ more ∧ Sequence form front more := by
  induction count generalizing found with
  | zero =>
      refine (accepts_pure found.reverse).congr fun front values => ?_
      constructor
      · rintro ⟨rfl, rfl⟩
        exact ⟨[], rfl, by simp, .nil⟩
      · rintro ⟨more, noMore, rfl, sequence⟩
        obtain rfl := List.length_eq_zero_iff.mp noMore
        cases sequence
        simp
  | succ count ih =>
      have composed := accepts.bind fun value => ih (value :: found)
      refine Accepts.congr composed ?_
      intro bytes values
      constructor
      · rintro ⟨front, back, value, first, ⟨more, rfl, rfl, others⟩, rfl⟩
        exact ⟨value :: more, rfl, by simp, .cons first others⟩
      · rintro ⟨more, counted, rfl, sequence⟩
        cases sequence with
        | nil => simp at counted
        | @cons front back value more first others =>
            exact ⟨front, back, value, first, ⟨more, by simpa using counted, by simp, others⟩, rfl⟩

theorem accepts_repeated (accepts : Accepts marks read form) (count : Nat) :
    Accepts marks (repeated read count) fun front values =>
      values.length = count ∧ Sequence form front values := by
  refine (accepts_repeatedOnto accepts [] count).congr fun front values => ?_
  simp

theorem untilEndOnto_succ (read : Reader α) (found : List α) (rounds : Nat) (cursor : Cursor) :
    untilEndOnto read found (rounds + 1) cursor =
      if cursor.atEnd then .ok found.reverse cursor
      else (read >>= fun value => untilEndOnto read (value :: found) rounds) cursor := by
  change (if cursor.atEnd then _ else _ : Reader (List α)) cursor = _
  cases cursor.atEnd <;> rfl

theorem untilEndOnto_of_atEnd (read : Reader α) (found : List α) (rounds : Nat) {cursor : Cursor}
    (atEnd : cursor.atEnd = true) :
    untilEndOnto read found rounds cursor = .ok found.reverse cursor := by
  cases rounds with
  | zero => rfl
  | succ rounds => rw [untilEndOnto_succ, if_pos atEnd]

/-- Reading up to the end takes the whole input apart.  Only values without an empty form are read
this way, so that the rounds do not run out before the input. -/
theorem untilEndOnto_eq_ok_iff (accepts : Accepts marks read form)
    (nonempty : ∀ front value, form front value → front ≠ []) (found : List α) {rounds : Nat}
    {unread : List UInt8} (enough : unread.length ≤ rounds) (position : Nat) (values : List α)
    (moved : Cursor) :
    untilEndOnto read found rounds ⟨unread, position, marks⟩ = .ok values moved ↔
      ∃ more, Sequence form unread more ∧ values = found.reverse ++ more ∧
        moved = ⟨[], position + unread.length, marks⟩ := by
  induction rounds generalizing found unread position with
  | zero =>
      obtain rfl := List.length_eq_zero_iff.mp (Nat.le_zero.mp enough)
      rw [untilEndOnto_of_atEnd read found 0 rfl]
      simp [Sequence.nil_iff nonempty, eq_comm]
  | succ rounds ih =>
      by_cases ended : unread = []
      · subst ended
        rw [untilEndOnto_of_atEnd read found (rounds + 1) rfl]
        simp [Sequence.nil_iff nonempty, eq_comm]
      · have notAtEnd : ¬ (⟨unread, position, marks⟩ : Cursor).atEnd = true := by
          simpa [Cursor.atEnd] using ended
        rw [untilEndOnto_succ, if_neg notAtEnd, bind_eq_ok_iff]
        -- A form that stands in front is not empty, so one round less is enough for the rest.
        have enoughForRest : ∀ front rest value, form front value → unread = front ++ rest →
            rest.length ≤ rounds := by
          rintro front rest value first rfl
          have positive := List.length_pos_iff.mpr (nonempty front value first)
          rw [List.length_append] at enough
          omega
        constructor
        · rintro ⟨value, between, readFirst, readOthers⟩
          obtain ⟨front, rest, first, split, rfl⟩ := (accepts _ _ _ _).mp readFirst
          obtain ⟨more, others, rfl, rfl⟩ :=
            (ih (value :: found) (enoughForRest front rest value first split) _).mp readOthers
          refine ⟨value :: more, split ▸ .cons first others, by simp, ?_⟩
          rw [split, List.length_append, Nat.add_assoc]
        · rintro ⟨more, sequence, rfl, rfl⟩
          cases sequence with
          | nil => exact absurd rfl ended
          | @cons front rest value more first others =>
              refine ⟨value, ⟨rest, position + front.length, marks⟩, ?_, ?_⟩
              · exact (accepts _ _ _ _).mpr ⟨front, rest, first, rfl, rfl⟩
              · refine (ih (value :: found) (enoughForRest front rest value first rfl) _).mpr
                  ⟨more, others, by simp, ?_⟩
                rw [List.length_append, Nat.add_assoc]

theorem untilEnd_eq_ok_iff (accepts : Accepts marks read form)
    (nonempty : ∀ front value, form front value → front ≠ []) (unread : List UInt8)
    (position : Nat) (values : List α) (moved : Cursor) :
    untilEnd read ⟨unread, position, marks⟩ = .ok values moved ↔
      Sequence form unread values ∧ moved = ⟨[], position + unread.length, marks⟩ := by
  change untilEndOnto read [] unread.length _ = _ ↔ _
  rw [untilEndOnto_eq_ok_iff accepts nonempty [] (Nat.le_refl _)]
  simp

end Repetition

end Reader

end ActionStream
