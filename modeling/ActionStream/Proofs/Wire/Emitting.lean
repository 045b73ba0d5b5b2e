import ActionStream.Wire.Buffer
import ActionStream.Proofs.Wire.Accepting

/-!
# What a writer emits

A writer emits a byte string under a condition when it succeeds exactly if the condition holds, and
then appends that byte string to whatever has been written before.  The bytes of a composed writer
are the bytes of its parts, and its condition is the conjunction of theirs.
-/

namespace ActionStream

namespace Buffer

theorem toList_injective {first second : Buffer} (same : first.toList = second.toList) :
    first = second := by
  cases first
  cases second
  exact congrArg Buffer.mk (Array.toList_inj.mp same)

@[simp]
theorem append_nil (buffer : Buffer) : buffer.append [] = buffer :=
  toList_injective (by simp)

@[simp]
theorem append_append (buffer : Buffer) (first second : List UInt8) :
    (buffer.append first).append second = buffer.append (first ++ second) :=
  toList_injective (by simp)

@[simp]
theorem position_append (buffer : Buffer) (more : List UInt8) :
    (buffer.append more).position = buffer.position + more.length := by
  rw [← length_toList, toList_append, List.length_append, length_toList]

end Buffer

namespace Writer

/-- A writer succeeds exactly if `possible` holds; it then gives `value` and appends `bytes`. -/
def Emits {α : Type} (write : Writer α) (possible : Prop) (bytes : List UInt8) (value : α) : Prop :=
  ∀ buffer result after,
    write buffer = .ok result after ↔ possible ∧ result = value ∧ after = buffer.append bytes

section Combinators

variable {α β : Type} {write : Writer α} {possible : Prop} {bytes : List UInt8} {value : α}

theorem Emits.congr {other : Prop} (emits : Emits write possible bytes value)
    (same : possible ↔ other) : Emits write other bytes value := by
  intro buffer result after
  rw [emits buffer result after, same]

theorem Emits.run (emits : Emits write possible bytes value) (holds : possible) (buffer : Buffer) :
    write buffer = .ok value (buffer.append bytes) :=
  (emits buffer value _).mpr ⟨holds, rfl, rfl⟩

theorem emits_pure (value : α) : Emits (pure value) True [] value := by
  intro buffer result after
  change EStateM.Result.ok value buffer = _ ↔ _
  simp [eq_comm]

theorem emits_throw (error : CodecError) : Emits (throw error) False bytes value := by
  intro buffer result after
  change EStateM.Result.error error buffer = _ ↔ _
  simp

theorem Emits.bind {possibleNext : Prop} {moreBytes : List UInt8} {last : β}
    (first : Emits write possible bytes value) (next : α → Writer β)
    (second : Emits (next value) possibleNext moreBytes last) :
    Emits (write >>= next) (possible ∧ possibleNext) (bytes ++ moreBytes) last := by
  intro buffer result after
  rw [bind_eq_ok_iff]
  constructor
  · rintro ⟨middle, between, writeFirst, writeNext⟩
    obtain ⟨holds, rfl, rfl⟩ := (first _ _ _).mp writeFirst
    obtain ⟨holdsNext, rfl, rfl⟩ := (second _ _ _).mp writeNext
    exact ⟨⟨holds, holdsNext⟩, rfl, by simp⟩
  · rintro ⟨⟨holds, holdsNext⟩, rfl, rfl⟩
    refine ⟨value, _, first.run holds buffer, ?_⟩
    rw [second.run holdsNext, Buffer.append_append]

/-- A writer without a result, then another one. -/
theorem Emits.andThen {write : Writer Unit} {more : Writer β} {possibleNext : Prop}
    {moreBytes : List UInt8} {last : β} (first : Emits write possible bytes ())
    (second : Emits more possibleNext moreBytes last) :
    Emits (write >>= fun _ => more) (possible ∧ possibleNext) (bytes ++ moreBytes) last :=
  first.bind (fun _ => more) second

theorem emits_ofExcept {outcome : Except CodecError α} (same : outcome = .ok value ↔ possible)
    (only : ∀ result, outcome = .ok result → result = value) :
    Emits (ofExcept outcome) possible [] value := by
  cases outcome with
  | error error => exact (emits_throw error).congr (by simpa using same)
  | ok result =>
      obtain rfl := only result rfl
      exact (emits_pure result).congr (by simpa using same)

theorem emits_block (bytes : List UInt8) : Emits (block bytes) True bytes () := by
  intro buffer result after
  simp [block, eq_comm]

theorem emits_each {write : α → Writer Unit} {possible : α → Prop} {bytes : α → List UInt8}
    (emits : ∀ value, Emits (write value) (possible value) (bytes value) ()) (values : List α) :
    Emits (each write values) (∀ value ∈ values, possible value) (values.flatMap bytes) () := by
  induction values with
  | nil => exact (emits_pure ()).congr (by simp)
  | cons first rest ih =>
      have composed := (emits first).andThen ih
      refine Emits.congr composed ?_
      simp

/-- The output of a writer that starts from nothing. -/
theorem Emits.output_eq_ok_iff {write : Writer Unit} (emits : Emits write possible bytes ())
    (result : List UInt8) : output write = .ok result ↔ possible ∧ result = bytes := by
  unfold output
  have run := emits Buffer.empty
  cases outcome : write Buffer.empty with
  | error error after =>
      simp only [outcome, reduceCtorEq, false_iff] at run ⊢
      exact fun both => run () (Buffer.empty.append bytes) ⟨both.1, trivial, rfl⟩
  | ok result after =>
      obtain ⟨holds, -, rfl⟩ := (run () after).mp outcome
      simp [holds, eq_comm]

end Combinators

end Writer

end ActionStream
