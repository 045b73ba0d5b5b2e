import ActionStream.Proofs.Action.Failures

/-!
# The cursors that decoding holds on its way

A reader shows the cursor that it leaves, not those that it held before.  The decoder is the same
program in every monad that input can be read in, so it also runs in one that records every cursor
that is held: the one behind every step, and those with a region's mark just set or just dropped.
The record is only added to and never looked at, so the outcome is that of the reader.  On the way a
region of some level holds its own mark and those of the levels below, and what is recorded while a
list of actions is decoded goes as deep as the regions of the list.
-/

namespace ActionStream

/-- The cursor that is held, with those that were held before. -/
structure History where
  cursor : Cursor
  earlier : List Cursor

namespace History

def points (history : History) : List Cursor :=
  history.cursor :: history.earlier

def moveTo (history : History) (moved : Cursor) : History :=
  ⟨moved, history.points⟩

/-- Nothing is forgotten, as many marks are held in the end, and on the way at most `levels`
more. -/
structure GoesOn (levels : Nat) (history after : History) : Prop where
  subset : history.points ⊆ after.points
  depth_eq : after.cursor.depth = history.cursor.depth
  depth_le : ∀ point ∈ after.points,
    point ∈ history.points ∨ point.depth ≤ history.cursor.depth + levels

variable {levels : Nat} {history after : History}

instance (levels : Nat) : IsPreorder History (GoesOn levels) where
  refl _ := ⟨List.Subset.refl _, rfl, fun _ member => .inl member⟩
  trans := by
    rintro first second third ⟨kept, sameDepth, bounded⟩ ⟨keptAgain, sameDepthAgain, boundedAgain⟩
    refine ⟨List.Subset.trans kept keptAgain, sameDepthAgain.trans sameDepth,
      fun point member => ?_⟩
    rcases boundedAgain point member with before | shallow
    · exact bounded point before
    · rw [sameDepth] at shallow
      exact .inr shallow

theorem GoesOn.mono {more : Nat} (goesOn : GoesOn levels history after) (le : levels ≤ more) :
    GoesOn more history after := by
  refine ⟨goesOn.subset, goesOn.depth_eq, fun point member => ?_⟩
  rcases goesOn.depth_le point member with before | shallow
  · exact .inl before
  · exact .inr (Nat.le_trans shallow (Nat.add_le_add_left le _))

/-- A move that keeps the marks. -/
theorem goesOn_moveTo {moved : Cursor} (sameMarks : moved.marks = history.cursor.marks) :
    GoesOn levels history (history.moveTo moved) := by
  have sameDepth : moved.depth = history.cursor.depth := congrArg List.length sameMarks
  refine ⟨List.subset_cons_self _ _, sameDepth, fun point member => ?_⟩
  rcases List.mem_cons.mp member with rfl | before
  · exact .inr (Nat.le_add_right_of_le (Nat.le_of_eq sameDepth))
  · exact .inl before

/-- What holds `levels` more marks with a mark set holds one more than that without it. -/
theorem GoesOn.unmark (goesOn : GoesOn levels (history.moveTo history.cursor.mark) after) :
    GoesOn (levels + 1) history (after.moveTo after.cursor.unmark) := by
  have innerDepth : after.cursor.marks.length = history.cursor.depth + 1 := goesOn.depth_eq
  have sameDepth : after.cursor.unmark.depth = history.cursor.depth := by
    simp [Cursor.depth, Cursor.unmark, innerDepth]
  have kept : history.points ⊆ (history.moveTo history.cursor.mark).points :=
    List.subset_cons_self _ _
  refine ⟨fun point member => List.mem_cons_of_mem _ (goesOn.subset (kept member)), sameDepth,
    fun point member => ?_⟩
  rcases List.mem_cons.mp member with rfl | held
  · exact .inr (Nat.le_add_right_of_le (Nat.le_of_eq sameDepth))
  rcases goesOn.depth_le point held with opened | shallow
  · rcases List.mem_cons.mp opened with rfl | before
    · exact .inr (Nat.add_le_add_left (Nat.le_add_left 1 levels) _)
    · exact .inl before
  · have openedDepth : (history.moveTo history.cursor.mark).cursor.depth =
        history.cursor.depth + 1 := rfl
    rw [openedDepth] at shallow
    exact .inr (by omega)

/-- One of the marks that are held while a mark is set is this mark. -/
theorem GoesOn.exists_bound_inside {marks : Nat}
    (goesOn : GoesOn levels (history.moveTo history.cursor.mark) after)
    (bounded : ∀ point ∈ after.points, point.depth ≤ history.cursor.depth + marks) :
    ∃ inside, marks = inside + 1 ∧
      ∀ point ∈ after.points, point.depth ≤ history.cursor.mark.depth + inside := by
  have held := bounded history.cursor.mark (goesOn.subset (List.mem_cons_self ..))
  rw [Cursor.depth_mark] at held
  refine ⟨marks - 1, by omega, fun point member => ?_⟩
  have shallow := bounded point member
  rw [Cursor.depth_mark]
  omega

end History

/-- A reader that records the cursors that it holds. -/
abbrev Recorder (α : Type) := EStateM CodecError History α

namespace Recorder

open MonadCursor (step untilEnd untilEndOnto)

variable {α β : Type}

/-- Does what a reader does in one step, and records the cursor behind it. -/
def perform (read : Reader α) : Recorder α := fun history =>
  match read history.cursor with
  | .ok value moved => .ok value (history.moveTo moved)
  | .error error moved => .error error (history.moveTo moved)

/-- Records the cursor with the mark that is set and the one with the mark dropped again. -/
def marked (read : Recorder α) : Recorder α := fun history =>
  match read (history.moveTo history.cursor.mark) with
  | .ok value after => .ok value (after.moveTo after.cursor.unmark)
  | .error error after => .error error (after.moveTo after.cursor.unmark)

instance : MonadCursor Recorder where
  step := perform
  marked := marked

/-- The outcome of decoding a byte string, and every cursor that was held on the way. -/
def decodeAll (context : Context) (bytes : List UInt8) :
    Except CodecError (List Action) × List Cursor :=
  match untilEnd (m := Recorder) (Action.readNext context)
    ⟨Cursor.ofBytes bytes, []⟩ with
  | .ok actions after => (.ok actions, after.points)
  | .error error after => (.error error, after.points)

/-- An outcome without its record. -/
def erase : EStateM.Result CodecError History α → EStateM.Result CodecError Cursor α
  | .ok value after => .ok value after.cursor
  | .error error after => .error error after.cursor

/-- A recorder has the outcome of a reader, and holds at most `levels` further marks on the way.  A
value that was given while at most so many further marks were held is `within` this number. -/
structure Records (levels : Nat) (within : α → Nat → Prop) (recorder : Recorder α)
    (read : Reader α) : Prop where
  erase_eq : ∀ history, erase (recorder history) = read history.cursor
  goesOn : Moves (History.GoesOn levels) (fun _ => True) recorder
  within_of_ok : ∀ {history value after}, recorder history = .ok value after → ∀ {marks},
    (∀ point ∈ after.points, point.depth ≤ history.cursor.depth + marks) → within value marks

section Combinators

variable {levels : Nat} {within : α → Nat → Prop} {later : β → Nat → Prop}
  {recorder : Recorder α} {read : Reader α}

theorem records_pure {value : α} (holds : ∀ marks, within value marks) :
    Records levels within (pure value) (pure value) where
  erase_eq _ := rfl
  goesOn := moves_pure value
  within_of_ok := by
    rintro history _ after success marks -
    cases success
    exact holds marks

theorem Records.weaken {other : α → Nat → Prop} (records : Records levels within recorder read)
    (weaker : ∀ value marks, within value marks → other value marks) :
    Records levels other recorder read :=
  ⟨records.erase_eq, records.goesOn,
    fun success _ bounded => weaker _ _ (records.within_of_ok success bounded)⟩

theorem Records.mono {more : Nat} (records : Records levels within recorder read)
    (le : levels ≤ more) : Records more within recorder read := by
  refine ⟨records.erase_eq, fun history => ?_, records.within_of_ok⟩
  have ends := records.goesOn history
  cases outcome : recorder history with
  | ok value after =>
      rw [outcome] at ends
      exact ends.mono le
  | error error after =>
      rw [outcome] at ends
      exact ⟨ends.1.mono le, trivial⟩

theorem step_eq_ok_iff {history after : History} {value : α} :
    (step read : Recorder α) history = .ok value after ↔
      ∃ moved, read history.cursor = .ok value moved ∧ after = history.moveTo moved := by
  change perform read history = _ ↔ _
  unfold perform
  cases read history.cursor <;> simp [eq_comm]

/-- One step of a reader that keeps the marks. -/
theorem records_stepTo {admits : CodecError → Prop} (confined : Reader.Confined admits read)
    (holds : ∀ {cursor value moved}, read cursor = .ok value moved → ∀ marks, within value marks) :
    Records levels within (step read) (step read) := by
  refine ⟨fun history => ?_, fun history => ?_, fun given marks _ => ?_⟩
  · change erase (perform read history) = read history.cursor
    unfold perform
    cases read history.cursor <;> rfl
  · change EndsAlong _ _ history (perform read history)
    unfold perform
    cases outcome : read history.cursor with
    | ok value moved => exact History.goesOn_moveTo (confined.of_ok outcome).marks_eq
    | error error moved =>
        exact ⟨History.goesOn_moveTo (confined.of_error outcome).1.marks_eq, trivial⟩
  · obtain ⟨moved, gives, -⟩ := step_eq_ok_iff.mp given
    exact holds gives marks

theorem records_step {admits : CodecError → Prop} (confined : Reader.Confined admits read) :
    Records levels (fun _ _ => True) (step read) (step read) :=
  records_stepTo confined fun _ _ => trivial

/-- The cursor that is looked at is the one that was recorded last. -/
theorem records_look :
    Records levels (fun _ _ => True) (step get) (step get) := by
  have confined : Reader.Confined (fun _ => True) get := fun cursor => refl_of Cursor.Follows cursor
  exact records_step confined

theorem records_throw (error : CodecError) :
    Records levels within (step (throw error)) (step (throw error)) := by
  have confined : Reader.Confined (fun _ => True) (throw error : Reader α) := moves_throw trivial
  exact records_stepTo confined fun success => by cases success

theorem Records.bind {next : α → Recorder β} {nextRead : α → Reader β}
    (first : Records levels within recorder read)
    (second : ∀ value, Records levels (fun result marks => within value marks → later result marks)
      (next value) (nextRead value)) :
    Records levels later (recorder >>= next) (read >>= nextRead) := by
  refine ⟨fun history => ?_, first.goesOn.bind fun value => (second value).goesOn, ?_⟩
  · have sameFirst := first.erase_eq history
    cases outcome : recorder history with
    | ok value after =>
        rw [outcome] at sameFirst
        rw [bind_of_ok outcome, bind_of_ok sameFirst.symm]
        exact (second value).erase_eq after
    | error error after =>
        rw [outcome] at sameFirst
        rw [bind_of_error outcome, bind_of_error sameFirst.symm]
        rfl
  · intro history result after success marks bounded
    obtain ⟨value, between, given, goneOn⟩ := (bind_eq_ok_iff ..).mp success
    have sameDepth := (first.goesOn.of_ok given).depth_eq
    have kept := ((second value).goesOn.of_ok goneOn).subset
    rw [← sameDepth] at bounded
    apply (second value).within_of_ok goneOn bounded
    rw [sameDepth] at bounded
    exact first.within_of_ok given fun point member => bounded point (kept member)

/-- What is known of a value need not matter for what is done next. -/
theorem Records.andThen {next : α → Recorder β} {nextRead : α → Reader β}
    (first : Records levels within recorder read)
    (second : ∀ value, Records levels later (next value) (nextRead value)) :
    Records levels later (recorder >>= next) (read >>= nextRead) :=
  first.bind fun value => (second value).weaken fun _ _ holds _ => holds

theorem Records.ite {condition : Prop} [Decidable condition] {alternative : Recorder α}
    {alternativeRead : Reader α} (records : Records levels within recorder read)
    (otherwise : Records levels within alternative alternativeRead) :
    Records levels within (if condition then recorder else alternative)
      (if condition then read else alternativeRead) := by
  split
  · exact records
  · exact otherwise

theorem Records.visit {Source Target : Type} {inside : Target → Nat → Prop}
    {region : Source → Recorder Target} {regionRead : Source → Reader Target}
    (records : ∀ source, Records levels inside (region source) (regionRead source))
    (fields : Block Source) :
    Records levels (fun visited marks => ∀ target ∈ visited.regions, inside target marks)
      (fields.visit region) (fields.visit regionRead) := by
  cases fields with
  | tryCatch tryBody target catchBody finallyBody =>
      apply (records tryBody).bind
      intro tryResult
      apply (records catchBody).bind
      intro catchResult
      apply (records finallyBody).bind
      intro finallyResult
      refine records_pure fun marks ofFinally ofCatch ofTry => ?_
      simpa [Block.regions] using ⟨ofTry, ofCatch, ofFinally⟩
  | _ => exact (records _).bind fun _ => records_pure fun _ holds => by simpa [Block.regions]

theorem marked_eq_ok_iff {history after : History} {value : α} :
    marked recorder history = .ok value after ↔
      ∃ inside, recorder (history.moveTo history.cursor.mark) = .ok value inside ∧
        after = inside.moveTo inside.cursor.unmark := by
  unfold marked
  cases recorder (history.moveTo history.cursor.mark) <;> simp [eq_comm]

/-- A mark takes one of the levels, and while it is set it is held. -/
theorem Records.marked (records : Records levels within recorder read) :
    Records (levels + 1) (fun value marks => ∃ inside, marks = inside + 1 ∧ within value inside)
      (MonadCursor.marked recorder) (MonadCursor.marked read) := by
  refine ⟨fun history => ?_, fun history => ?_, fun given marks bounded => ?_⟩
  · have same := records.erase_eq (history.moveTo history.cursor.mark)
    change _ = read history.cursor.mark at same
    change erase (Recorder.marked recorder history) = Reader.marked read history.cursor
    rw [Recorder.marked, Reader.marked, ← same]
    cases recorder (history.moveTo history.cursor.mark) <;> rfl
  · have ends := records.goesOn (history.moveTo history.cursor.mark)
    change EndsAlong _ _ history (Recorder.marked recorder history)
    rw [Recorder.marked]
    cases outcome : recorder (history.moveTo history.cursor.mark) with
    | ok value after =>
        rw [outcome] at ends
        exact ends.unmark
    | error error after =>
        rw [outcome] at ends
        exact ⟨ends.1.unmark, trivial⟩
  · obtain ⟨inner, gives, rfl⟩ := marked_eq_ok_iff.mp given
    obtain ⟨inside, rfl, boundedInside⟩ := (records.goesOn.of_ok gives).exists_bound_inside
      fun point member => bounded point (List.mem_cons_of_mem _ member)
    exact ⟨inside, rfl, records.within_of_ok gives boundedInside⟩

/-- A value that needs some number of marks was given while at least as many were held. -/
theorem Records.exists_point {nestingOf : α → Nat} {history after : History} {value : α}
    (records : Records levels (fun value marks => nestingOf value ≤ marks) recorder read)
    (given : recorder history = .ok value after) :
    ∃ point ∈ after.points, history.cursor.depth + nestingOf value ≤ point.depth := by
  cases nesting : nestingOf value with
  | zero =>
      exact ⟨after.cursor, List.mem_cons_self .., (records.goesOn.of_ok given).depth_eq.ge⟩
  | succ inside =>
      by_contra shallow
      have bounded : ∀ point ∈ after.points, point.depth ≤ history.cursor.depth + inside := by
        intro point member
        have lower := mt (fun reaches => ⟨point, member, reaches⟩) shallow
        omega
      have nests := records.within_of_ok given bounded
      omega

end Combinators

section Actions

open ActionStream.Action

variable {levels : Nat} (context : Context)

/-- An action within a number of marks: its regions nest at most as deep. -/
abbrev NestsWithin (action : Action) (marks : Nat) : Prop :=
  action.nesting ≤ marks

abbrev RegionWithin (region : List Action) (marks : Nat) : Prop :=
  openNesting region ≤ marks

theorem records_word16 : Records levels (fun _ _ => True) (step Reader.word16)
    (step Reader.word16) :=
  records_step (Reader.confined_word16As CodecError.ofStream_end "u16")

theorem records_closeHeader (opcode : UInt8) (declared : Nat) (left : Cursor) :
    Records levels (fun _ _ => True) (step (closeHeader context opcode declared left))
      (step (closeHeader context opcode declared left)) :=
  records_step (confined_closeHeader context opcode declared left)

theorem records_header (declared : Nat) :
    Records levels (fun _ _ => True) (step (Reader.part declared "action body"))
      (step (Reader.part declared "action body")) :=
  records_step (Reader.confined_part CodecError.ofStream_end declared "action body")

theorem records_readPlain (kind : PlainKind) :
    Records levels NestsWithin (readPlain context kind) (readPlain context kind) := by
  apply records_word16.andThen
  intro declared
  apply (records_header declared.toNat).andThen
  intro header
  apply (records_step (Reader.confined_within header (Plain.confined_read context kind))).andThen
  intro result
  apply (records_closeHeader context kind.opcode declared.toNat result.2).andThen
  intro _
  exact records_pure fun _ => Nat.zero_le _

theorem records_readCall : Records levels NestsWithin readCall readCall := by
  apply records_word16.andThen
  intro declared
  apply (records_step (Reader.confined_skip CodecError.ofStream_end declared.toNat)).andThen
  intro _
  exact records_pure fun _ => Nat.zero_le _

theorem records_readUnknown (opcode : UInt8) :
    Records levels NestsWithin (readUnknown opcode) (readUnknown opcode) := by
  apply records_word16.andThen
  intro declared
  have body := Reader.confined_take CodecError.ofStream_end declared.toNat "byte block"
  exact (records_step body).andThen fun _ => records_pure fun _ => Nat.zero_le _

/-- What a fixed-form opcode stands for has no regions. -/
theorem nesting_of_ofFixedForm {opcode : UInt8} {action : Action}
    (built : ofFixedForm context opcode = .ok action) : action.nesting = 0 := by
  unfold ofFixedForm at built
  split at built
  · cases built
    rfl
  · split at built <;> cases built
    rfl

theorem records_fixedForm (opcode : UInt8) :
    Records levels NestsWithin (step (Reader.ofExcept (ofFixedForm context opcode)))
      (step (Reader.ofExcept (ofFixedForm context opcode))) := by
  refine records_stepTo (confined_fixedForm context opcode)
    fun {cursor action moved} given marks => ?_
  cases built : ofFixedForm context opcode with
  | error error =>
      rw [built] at given
      cases given
  | ok found =>
      rw [built] at given
      cases given
      exact (nesting_of_ofFixedForm context built).trans_le (Nat.zero_le marks)

section

variable {region : Nat → Recorder (List Action)} {regionRead : Nat → Reader (List Action)}
  (records : ∀ size, Records levels RegionWithin (region size) (regionRead size))

include records

theorem records_readBlock (kind : BlockKind) :
    Records levels NestsWithin (readBlock region context kind)
      (readBlock regionRead context kind) := by
  apply records_word16.andThen
  intro declared
  apply (records_header declared.toNat).andThen
  intro header
  apply (records_step (Reader.confined_within header (Block.confined_read context kind))).andThen
  intro result
  apply (Records.visit (fun size : UInt16 => records size.toNat) result.1).bind
  intro fields
  apply (records_closeHeader context kind.opcode declared.toNat result.2).andThen
  intro _
  exact records_pure fun _ inside => nesting_block_le_iff.mpr inside

theorem records_readAfter (opcode : UInt8) :
    Records levels NestsWithin (readAfter region context opcode)
      (readAfter regionRead context opcode) := by
  unfold readAfter
  apply Records.ite (records_fixedForm context opcode)
  apply Records.ite records_readCall
  cases PlainKind.ofOpcode? opcode with
  | some kind => exact records_readPlain context kind
  | none =>
      cases BlockKind.ofOpcode? opcode with
      | some kind => exact records_readBlock context records kind
      | none => exact records_readUnknown opcode

theorem records_readWith :
    Records levels NestsWithin (readWith region context) (readWith regionRead context) := by
  apply (records_step (Reader.confined_byte CodecError.ofStream_end)).andThen
  intro opcode
  exact records_readAfter context records opcode

end

/-- Actions that were found and those behind them: they nest at most as deep as the marks allow, if
so does what was found. -/
abbrev GoesOnWithin (found actions : List Action) (marks : Nat) : Prop :=
  listNesting found ≤ marks → listNesting actions ≤ marks

theorem listNesting_reverse_le_iff {found : List Action} {marks : Nat} :
    listNesting found.reverse ≤ marks ↔ listNesting found ≤ marks := by
  simp [listNesting_le_iff]

theorem records_closeRegion (limit : Nat) (found : List Action) :
    Records levels (GoesOnWithin found) (step (closeRegion limit found))
      (step (closeRegion limit found)) := by
  have confined : Reader.Confined (fun _ => True) (closeRegion limit found) := by
    intro cursor
    rw [closeRegion_apply]
    split
    · exact refl_of Cursor.Follows cursor
    · exact ⟨refl_of Cursor.Follows cursor, trivial⟩
  refine records_stepTo confined fun {cursor actions moved} success marks inside => ?_
  obtain ⟨-, rfl, -⟩ := (closeRegion_eq_ok_iff ..).mp success
  exact listNesting_reverse_le_iff.mpr inside

section

variable {recorder : Recorder Action} {read : Reader Action}
  (records : Records levels NestsWithin recorder read)

include records

theorem records_fillRegion (limit : Nat) (found : List Action) (rounds : Nat) :
    Records levels (GoesOnWithin found) (fillRegion recorder limit found rounds)
      (fillRegion read limit found rounds) := by
  induction rounds generalizing found with
  | zero => exact records_closeRegion limit found
  | succ rounds ih =>
      apply records_look.andThen
      intro cursor
      apply Records.ite _ (records_closeRegion limit found)
      apply records.bind
      intro action
      refine (ih (action :: found)).weaken fun actions marks inside first others => ?_
      exact inside (Nat.max_le.mpr ⟨first, others⟩)

theorem records_untilEndOnto (found : List Action) (rounds : Nat) :
    Records levels (GoesOnWithin found) (untilEndOnto recorder found rounds)
      (untilEndOnto read found rounds) := by
  induction rounds generalizing found with
  | zero => exact records_pure fun _ => listNesting_reverse_le_iff.mpr
  | succ rounds ih =>
      apply records_look.andThen
      intro cursor
      apply Records.ite (records_pure fun _ => listNesting_reverse_le_iff.mpr)
      apply records.bind
      intro action
      refine (ih (action :: found)).weaken fun actions marks inside first others => ?_
      exact inside (Nat.max_le.mpr ⟨first, others⟩)

theorem records_untilEnd :
    Records levels (fun actions marks => listNesting actions ≤ marks) (untilEnd recorder)
      (untilEnd read) := by
  apply records_look.andThen
  intro cursor
  refine (records_untilEndOnto records [] cursor.remaining).weaken fun actions marks inside => ?_
  exact inside (Nat.zero_le marks)

end

theorem records_openRegion {recorder : Recorder (List Action)} {read : Reader (List Action)}
    (records : Records levels RegionWithin recorder read) (limit : Nat) :
    Records levels RegionWithin (openRegion limit recorder) (openRegion limit read) := by
  apply records_look.andThen
  intro cursor
  have empty (marks : Nat) : RegionWithin [] marks := Nat.zero_le marks
  apply Records.ite (records_pure empty)
  exact Records.ite (records_throw _) records

theorem records_regionAt (levels limit : Nat) :
    Records levels RegionWithin (regionAt context levels limit)
      (regionAt context levels limit) := by
  induction levels generalizing limit with
  | zero => exact records_openRegion (records_throw _) limit
  | succ levels ih =>
      apply records_openRegion
      refine ((records_fillRegion (records_readWith context ih) limit [] limit).marked).weaken ?_
      rintro actions _ ⟨inner, rfl, inside⟩
      exact openNesting_le_succ_iff.mpr (listNesting_le_iff.mp (inside (Nat.zero_le inner)))

theorem records_readNext :
    Records deepestNesting NestsWithin (readNext context) (readNext context) := by
  apply records_look.andThen
  intro cursor
  have regions := records_regionAt context (deepestNesting - cursor.depth)
  exact (records_readWith context regions).mono (Nat.sub_le ..)

theorem fst_decodeAll (bytes : List UInt8) :
    (decodeAll context bytes).1 = Action.decodeAll context bytes := by
  have same := (records_untilEnd (records_readNext context)).erase_eq ⟨Cursor.ofBytes bytes, []⟩
  unfold decodeAll Action.decodeAll Action.read
  rw [← same]
  cases untilEnd (m := Recorder) (readNext context) ⟨Cursor.ofBytes bytes, []⟩ <;> rfl

/-- No cursor of the record has more marks than regions may be open. -/
theorem depth_le_of_mem_decodeAll {bytes : List UInt8} {point : Cursor}
    (member : point ∈ (decodeAll context bytes).2) : point.depth ≤ deepestNesting := by
  have goesOn := (records_untilEnd (records_readNext context)).goesOn ⟨Cursor.ofBytes bytes, []⟩
  have bounded (after : History)
      (ends : History.GoesOn deepestNesting ⟨Cursor.ofBytes bytes, []⟩ after)
      (held : point ∈ after.points) : point.depth ≤ deepestNesting := by
    rcases ends.depth_le point held with start | shallow
    · obtain rfl := List.mem_singleton.mp start
      exact Nat.zero_le _
    · exact Nat.le_trans shallow (Nat.le_of_eq (Nat.zero_add _))
  unfold decodeAll at member
  split at member
  next outcome =>
    rw [outcome] at goesOn
    exact bounded _ goesOn member
  next outcome =>
    rw [outcome] at goesOn
    exact bounded _ goesOn.1 member

/-- While a list of actions is decoded, as many marks are held at some point as its regions are
nested deep. -/
theorem exists_mem_decodeAll {bytes : List UInt8} {actions : List Action}
    (decoded : Action.decodeAll context bytes = .ok actions) :
    ∃ point ∈ (decodeAll context bytes).2, listNesting actions ≤ point.depth := by
  have recorded := fst_decodeAll context bytes
  rw [decoded] at recorded
  unfold decodeAll at recorded ⊢
  cases outcome : untilEnd (m := Recorder) (readNext context) ⟨Cursor.ofBytes bytes, []⟩ with
  | error error after =>
      rw [outcome] at recorded
      cases recorded
  | ok found after =>
      rw [outcome] at recorded
      cases recorded
      obtain ⟨point, member, deep⟩ :=
        (records_untilEnd (records_readNext context)).exists_point outcome
      exact ⟨point, member, Nat.le_trans (Nat.le_add_left ..) deep⟩

end Actions

end Recorder

end ActionStream
