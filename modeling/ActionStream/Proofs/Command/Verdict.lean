import ActionStream.Command.Run
import ActionStream.Proofs.Action.Rewriting

/-!
# The verdict of a check

A stream that is decoded is encoded again without failure and in no more bytes, so a check has three
outcomes.  Two byte strings first differ behind their longest common prefix; since what is encoded
again is not longer, it is either the stream or differs from it before the end of the stream.
-/

namespace ActionStream

/-- The longest of the byte strings that two byte strings begin with. -/
structure LongestCommonPrefix (common first second : List UInt8) : Prop where
  begins_first : common <+: first
  begins_second : common <+: second
  longest : ∀ other, other <+: first → other <+: second → other.length ≤ common.length

namespace LongestCommonPrefix

variable {common other first second : List UInt8}

theorem length_eq (longest : LongestCommonPrefix common first second)
    (again : LongestCommonPrefix other first second) : common.length = other.length :=
  Nat.le_antisymm (again.longest _ longest.begins_first longest.begins_second)
    (longest.longest _ again.begins_first again.begins_second)

theorem nil_left : LongestCommonPrefix [] [] second where
  begins_first := List.prefix_refl []
  begins_second := List.nil_prefix
  longest _ ofFirst _ := ofFirst.length_le

theorem nil_right : LongestCommonPrefix [] first [] where
  begins_first := List.nil_prefix
  begins_second := List.prefix_refl []
  longest _ _ ofSecond := ofSecond.length_le

theorem of_heads_ne {firstByte secondByte : UInt8} (differ : firstByte ≠ secondByte) :
    LongestCommonPrefix [] (firstByte :: first) (secondByte :: second) where
  begins_first := List.nil_prefix
  begins_second := List.nil_prefix
  longest other ofFirst ofSecond := by
    cases other with
    | nil => exact Nat.le_refl 0
    | cons byte rest =>
        have asFirst := (List.cons_prefix_cons.mp ofFirst).1
        have asSecond := (List.cons_prefix_cons.mp ofSecond).1
        exact absurd (asFirst.symm.trans asSecond) differ

theorem cons (byte : UInt8) (longest : LongestCommonPrefix common first second) :
    LongestCommonPrefix (byte :: common) (byte :: first) (byte :: second) where
  begins_first := List.cons_prefix_cons.mpr ⟨rfl, longest.begins_first⟩
  begins_second := List.cons_prefix_cons.mpr ⟨rfl, longest.begins_second⟩
  longest other ofFirst ofSecond := by
    cases other with
    | nil => exact Nat.zero_le _
    | cons head rest =>
        have restOfFirst := (List.cons_prefix_cons.mp ofFirst).2
        have restOfSecond := (List.cons_prefix_cons.mp ofSecond).2
        exact Nat.succ_le_succ (longest.longest rest restOfFirst restOfSecond)

end LongestCommonPrefix

section Difference

variable {offset index : Nat} {first second : List UInt8}

theorem eq_of_firstDifferenceFrom_eq_none (same : firstDifferenceFrom offset first second = none) :
    first = second := by
  induction first generalizing offset second with
  | nil =>
      cases second with
      | nil => rfl
      | cons => cases same
  | cons firstByte first ih =>
      cases second with
      | nil => cases same
      | cons secondByte second =>
          rw [firstDifferenceFrom] at same
          split at same
          next equal => rw [equal, ih same]
          next => cases same

theorem firstDifferenceFrom_self : firstDifferenceFrom offset first first = none := by
  induction first generalizing offset with
  | nil => rfl
  | cons byte first ih => rw [firstDifferenceFrom, if_pos rfl, ih]

/-- The comparison stops behind the longest common prefix. -/
theorem exists_longestCommonPrefix
    (differ : firstDifferenceFrom offset first second = some index) :
    ∃ common, LongestCommonPrefix common first second ∧ index = offset + common.length := by
  induction first generalizing offset second with
  | nil =>
      cases second with
      | nil => cases differ
      | cons =>
          cases differ
          exact ⟨[], .nil_left, rfl⟩
  | cons firstByte first ih =>
      cases second with
      | nil =>
          cases differ
          exact ⟨[], .nil_right, rfl⟩
      | cons secondByte second =>
          rw [firstDifferenceFrom] at differ
          split at differ
          next equal =>
            obtain ⟨common, longest, rfl⟩ := ih differ
            subst equal
            exact ⟨firstByte :: common, longest.cons firstByte, by rw [List.length_cons]; omega⟩
          next unequal =>
            cases differ
            exact ⟨[], .of_heads_ne unequal, rfl⟩

end Difference

/-- The outcomes that the check of a stream can have. -/
inductive Verdict (context : Context) (stream : List UInt8) : CheckOutcome → Prop
  | undecodable {error : CodecError} (failure : Action.decodeAll context stream = .error error) :
    Verdict context stream (.undecodable error)
  | identical {actions : List Action} (decoded : Action.decodeAll context stream = .ok actions)
    (encoded : Action.encodeAll context actions = .ok stream) :
    Verdict context stream (.identical actions.length stream.length)
  /-- The stream and what is encoded again go apart before the end of the stream. -/
  | different {actions : List Action} {output common : List UInt8}
    (decoded : Action.decodeAll context stream = .ok actions)
    (encoded : Action.encodeAll context actions = .ok output)
    (longest : LongestCommonPrefix common stream output) (inside : common.length < stream.length)
    (short : output.length ≤ stream.length) :
    Verdict context stream (.different common.length stream.length output.length)

namespace Verdict

variable {context : Context} {stream output common : List UInt8} {actions : List Action}
  {outcome : CheckOutcome}

theorem exists_encodeAll (decoded : Action.decodeAll context stream = .ok actions) :
    ∃ output, Action.encodeAll context actions = .ok output ∧ output.length ≤ stream.length := by
  have stream := (Action.stream_of_decodeAll decoded).1
  refine ⟨Action.allBytes context actions, ?_, ?_⟩
  · exact (Action.encodeAll_eq_ok_iff ..).mpr
      ⟨fun action within => (stream.readable action within).1, rfl⟩
  · rw [Action.length_allBytes]
    exact stream.totalSize_le

/-- What is not longer than a stream and differs from it does so before its end. -/
theorem length_lt_of_ne (longest : LongestCommonPrefix common stream output)
    (short : output.length ≤ stream.length) (differ : stream ≠ output) :
    common.length < stream.length := by
  refine Nat.lt_of_le_of_ne longest.begins_first.length_le fun whole => differ ?_
  have isStream := longest.begins_first.eq_of_length whole
  subst isStream
  exact longest.begins_second.eq_of_length_le short

theorem of_checkStream (context : Context) (stream : List UInt8) :
    Verdict context stream (checkStream context stream) := by
  unfold checkStream
  cases decoding : Action.decodeAll context stream with
  | error error => exact .undecodable decoding
  | ok actions =>
      obtain ⟨output, encoded, short⟩ := exists_encodeAll decoding
      simp only [encoded]
      cases difference : firstDifference stream output with
      | none =>
          obtain rfl := eq_of_firstDifferenceFrom_eq_none difference
          exact .identical decoding encoded
      | some offset =>
          have differ : stream ≠ output := by
            rintro rfl
            rw [firstDifference, firstDifferenceFrom_self] at difference
            cases difference
          obtain ⟨common, longest, rfl⟩ := exists_longestCommonPrefix difference
          rw [Nat.zero_add]
          exact .different decoding encoded longest (length_lt_of_ne longest short differ) short

/-- A verdict is the outcome of the check, because the longest common prefix has one length. -/
theorem checkStream_eq (verdict : Verdict context stream outcome) :
    checkStream context stream = outcome := by
  cases verdict with
  | undecodable failure => rw [checkStream, failure]
  | identical decoded encoded =>
      simp only [checkStream, decoded, encoded, firstDifference, firstDifferenceFrom_self]
  | @different actions output common decoded encoded longest inside short =>
      simp only [checkStream, decoded, encoded]
      cases difference : firstDifference stream output with
      | none =>
          obtain rfl := eq_of_firstDifferenceFrom_eq_none difference
          have whole := longest.longest stream (List.prefix_refl _) (List.prefix_refl _)
          exact absurd inside (Nat.not_lt.mpr whole)
      | some offset =>
          obtain ⟨found, longestFound, rfl⟩ := exists_longestCommonPrefix difference
          rw [Nat.zero_add, longest.length_eq longestFound]

end Verdict

/-- What the check of a file reports about an outcome: the exit code and what is printed, to the
output and to the errors.  That the actions cannot be encoded is not among the outcomes. -/
inductive Announced (path : String) : CheckOutcome → Report → Prop
  | undecodable (error : CodecError) :
    Announced path (.undecodable error)
      ⟨1, "", "Error: Failed to decode action stream '" ++ path ++ "'\n\nCaused by:\n    " ++
        error.message ++ "\n"⟩
  | identical (actions bytes : Nat) :
    Announced path (.identical actions bytes)
      ⟨0, "ok: " ++ toString actions ++ " actions, " ++ toString bytes ++ " bytes\n", ""⟩
  | different (offset input output : Nat) :
    Announced path (.different offset input output)
      ⟨1, "", "Error: re-encoded stream differs at byte " ++ toString offset ++ " (input " ++
        toString input ++ " bytes, output " ++ toString output ++ " bytes)\n"⟩

section

variable {context : Context} {stream : List UInt8} {outcome : CheckOutcome} {path : String}
  {report : Report}

theorem Verdict.exists_announced (path : String) (verdict : Verdict context stream outcome) :
    ∃ report, Announced path outcome report := by
  cases verdict with
  | undecodable failure => exact ⟨_, .undecodable _⟩
  | identical decoded encoded => exact ⟨_, .identical _ _⟩
  | different decoded encoded longest inside short => exact ⟨_, .different _ _ _⟩

namespace Announced

theorem checkReport_eq (announced : Announced path outcome report) :
    Command.checkReport path outcome = report := by
  -- The command joins the same characters from other pieces.
  cases announced with
  | undecodable error =>
      simp only [Command.checkReport, Command.undecodable, Report.failureBecause, Report.mk.injEq,
        true_and]
      apply String.toList_inj.mp
      simp [toString]
  | identical actions bytes => rfl
  | different offset input output =>
      simp only [Command.checkReport, Report.failure, Report.mk.injEq, true_and]
      apply String.toList_inj.mp
      simp [toString]

/-- The check succeeds exactly on the streams that are what their actions are encoded to. -/
theorem code_eq_zero_iff (announced : Announced path outcome report)
    (verdict : Verdict context stream outcome) :
    report.code = 0 ↔ ∃ actions, Action.decodeAll context stream = .ok actions ∧
      Action.encodeAll context actions = .ok stream := by
  cases verdict with
  | @undecodable error failure =>
      cases announced
      simp [failure]
  | @identical actions decoded encoded =>
      cases announced
      exact ⟨fun _ => ⟨actions, decoded, encoded⟩, fun _ => rfl⟩
  | @different actions output common decoded encoded longest inside short =>
      cases announced
      refine ⟨fun success => absurd success (by decide : (1 : UInt8) ≠ 0), ?_⟩
      rintro ⟨again, decodedAgain, encodedAgain⟩
      obtain rfl := Except.ok.inj (decoded.symm.trans decodedAgain)
      obtain rfl := Except.ok.inj (encoded.symm.trans encodedAgain)
      have whole := longest.longest output (List.prefix_refl _) (List.prefix_refl _)
      exact absurd inside (Nat.not_lt.mpr whole)

end Announced

end

/-- The check command reports the verdict on the stream in its file.  The verdict is that the stream
cannot be decoded, that it is what its actions are encoded to, or the place before its end where it
goes apart from what they are encoded to, which is not longer; there always is something that they
are encoded to.  The exit code is zero in the second case only. -/
theorem checkStream_verdict {view : FileView} {invocation : Invocation} {stream : List UInt8}
    (context : Context) (isCheck : invocation.command = .check)
    (readable : view invocation.file = .ok stream) :
    (∃ report, Command.runIn view context invocation = .ok (.finished report) ∧
        Announced invocation.file (checkStream context stream) report ∧
        (report.code = 0 ↔ ∃ actions, Action.decodeAll context stream = .ok actions ∧
          Action.encodeAll context actions = .ok stream)) ∧
      (∀ outcome, checkStream context stream = outcome ↔ Verdict context stream outcome) ∧
      ∀ error, checkStream context stream ≠ .unencodable error := by
  have verdict := Verdict.of_checkStream context stream
  obtain ⟨report, announced⟩ := verdict.exists_announced invocation.file
  refine ⟨⟨report, ?_, announced, announced.code_eq_zero_iff verdict⟩,
    fun outcome => ⟨?_, Verdict.checkStream_eq⟩, ?_⟩
  · rw [← announced.checkReport_eq]
    simp only [Command.runIn, isCheck, Command.readInput, readable]
    rfl
  · rintro rfl
    exact verdict
  · intro error unencodable
    rw [unencodable] at verdict
    cases verdict

/-- A frame call that declares two bytes is encoded again without them, so it goes apart from its
stream at the length. -/
theorem checkStream_verdict_wastefulCall :
    Command.runIn (fun _ => .ok [0x9E, 2, 0, 0xAA, 0xBB]) {} ⟨.check, "call.bin", none, none, {}⟩ =
        .ok (.finished ⟨1, "",
          "Error: re-encoded stream differs at byte 1 (input 5 bytes, output 3 bytes)\n"⟩) ∧
      Verdict {} [0x9E, 2, 0, 0xAA, 0xBB] (.different 1 5 3) := by
  have outcome : checkStream {} [0x9E, 2, 0, 0xAA, 0xBB] = .different 1 5 3 := by rfl
  obtain ⟨⟨report, ran, announced, -⟩, verdict, -⟩ :=
    @checkStream_verdict (fun _ => .ok [0x9E, 2, 0, 0xAA, 0xBB])
      ⟨.check, "call.bin", none, none, {}⟩ [0x9E, 2, 0, 0xAA, 0xBB] {} rfl rfl
  rw [outcome] at announced
  cases announced
  exact ⟨ran, (verdict _).mp outcome⟩

end ActionStream
