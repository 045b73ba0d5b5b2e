import Mathlib.Tactic.Common

/-!
# Forms and sequences of forms

A form says which byte strings stand for a value.  A byte string that consists of forms, one behind
the other, is a sequence.  When values are written again, a sequence stays as it is if every form in
it does: a form is never replaced by a longer one, so changes cannot cancel out.
-/

namespace ActionStream

/-- Which byte strings stand for a value. -/
abbrev Form (α : Type) := List UInt8 → α → Prop

/-- A byte string that consists of forms of the listed values, one behind the other. -/
inductive Sequence {α : Type} (form : Form α) : List UInt8 → List α → Prop
  | nil : Sequence form [] []
  | cons {front rest : List UInt8} {value : α} {values : List α} (first : form front value)
      (others : Sequence form rest values) : Sequence form (front ++ rest) (value :: values)

/-- Two parts that are not longer than their counterparts are the same if they are together. -/
theorem append_eq_append_of_length_le {front rest frontOther restOther : List UInt8}
    (same : front ++ rest = frontOther ++ restOther) (frontBound : front.length ≤ frontOther.length)
    (restBound : rest.length ≤ restOther.length) : front = frontOther ∧ rest = restOther := by
  have lengths := congrArg List.length same
  simp only [List.length_append] at lengths
  exact List.append_inj same (by omega)

section

variable {α : Type} {first second : α → List UInt8} {values : List α}

theorem length_flatMap_le_length_flatMap
    (shrinks : ∀ value ∈ values, (first value).length ≤ (second value).length) :
    (values.flatMap first).length ≤ (values.flatMap second).length := by
  induction values with
  | nil => exact Nat.le_refl _
  | cons value values ih =>
      rw [List.forall_mem_cons] at shrinks
      have restBound := ih shrinks.2
      simp only [List.flatMap_cons, List.length_append]
      omega

/-- Parts that are not longer than their counterparts are all the same if they are together. -/
theorem flatMap_eq_flatMap_iff
    (shrinks : ∀ value ∈ values, (first value).length ≤ (second value).length) :
    values.flatMap first = values.flatMap second ↔
      ∀ value ∈ values, first value = second value := by
  induction values with
  | nil => simp
  | cons value values ih =>
      rw [List.forall_mem_cons] at shrinks ⊢
      rw [List.flatMap_cons, List.flatMap_cons, ← ih shrinks.2]
      constructor
      · intro same
        exact append_eq_append_of_length_le same shrinks.1
          (length_flatMap_le_length_flatMap shrinks.2)
      · rintro ⟨firstSame, restSame⟩
        rw [firstSame, restSame]

end

namespace Sequence

variable {α : Type} {form other : Form α} {bytes : List UInt8} {values : List α}

theorem mono (weaken : ∀ front value, form front value → other front value)
    (sequence : Sequence form bytes values) : Sequence other bytes values := by
  induction sequence with
  | nil => exact .nil
  | cons first others ih => exact .cons (weaken _ _ first) ih

theorem congr (same : ∀ front value, form front value ↔ other front value) :
    Sequence form bytes values ↔ Sequence other bytes values :=
  ⟨mono fun front value => (same front value).mp, mono fun front value => (same front value).mpr⟩

/-- Where no value has an empty form, only the empty list has one. -/
theorem nil_iff (nonempty : ∀ front value, form front value → front ≠ []) :
    Sequence form [] values ↔ values = [] := by
  constructor
  · intro sequence
    generalize sourceEq : ([] : List UInt8) = source at sequence
    cases sequence with
    | nil => rfl
    | cons first others =>
        obtain ⟨frontNil, -⟩ := List.append_eq_nil_iff.mp sourceEq.symm
        exact absurd frontNil (nonempty _ _ first)
  · rintro rfl
    exact .nil

theorem forall_mem {holds : α → Prop} (sequence : Sequence form bytes values)
    (each : ∀ front value, form front value → holds value) : ∀ value ∈ values, holds value := by
  induction sequence with
  | nil => simp
  | cons first others ih => exact List.forall_mem_cons.mpr ⟨each _ _ first, ih⟩

theorem and_iff {holds : α → Prop} :
    Sequence (fun front value => form front value ∧ holds value) bytes values ↔
      Sequence form bytes values ∧ ∀ value ∈ values, holds value := by
  constructor
  · intro sequence
    exact ⟨sequence.mono fun _ _ both => both.1, sequence.forall_mem fun _ _ both => both.2⟩
  · rintro ⟨sequence, each⟩
    induction sequence with
    | nil => exact .nil
    | cons first others ih =>
        rw [List.forall_mem_cons] at each
        exact .cons ⟨first, each.1⟩ (ih each.2)

/-- Values that have a written form have a sequence of them. -/
theorem of_forall_mem {write : α → List UInt8} (each : ∀ value ∈ values, form (write value) value) :
    Sequence form (values.flatMap write) values := by
  induction values with
  | nil => exact .nil
  | cons value values ih =>
      rw [List.forall_mem_cons] at each
      exact .cons each.1 (ih each.2)

/-- Values whose written forms are not longer than the forms in a sequence. -/
theorem length_flatMap_le {write : α → List UInt8} (sequence : Sequence form bytes values)
    (shrinks : ∀ front value, form front value → (write value).length ≤ front.length) :
    (values.flatMap write).length ≤ bytes.length := by
  induction sequence with
  | nil => exact Nat.le_refl _
  | cons first others ih =>
      have firstBound := shrinks _ _ first
      rw [List.flatMap_cons, List.length_append, List.length_append]
      omega

/-- A form of a value stands somewhere in a sequence. -/
inductive Stands (form : Form α) (front : List UInt8) (value : α) : List UInt8 → List α → Prop
  | here {rest : List UInt8} {values : List α} (first : form front value)
      (others : Sequence form rest values) :
      Stands form front value (front ++ rest) (value :: values)
  | later {before rest : List UInt8} {earlier : α} {values : List α} (first : form before earlier)
      (stands : Stands form front value rest values) :
      Stands form front value (before ++ rest) (earlier :: values)

namespace Stands

variable {front : List UInt8} {value : α}

theorem form_of (stands : Stands form front value bytes values) : form front value := by
  induction stands with
  | here first others => exact first
  | later first stands ih => exact ih

theorem mono (weaken : ∀ front value, form front value → other front value)
    (stands : Stands form front value bytes values) : Stands other front value bytes values := by
  induction stands with
  | here first others => exact .here (weaken _ _ first) (others.mono weaken)
  | later first stands ih => exact .later (weaken _ _ first) ih

theorem sequence (stands : Stands form front value bytes values) : Sequence form bytes values := by
  induction stands with
  | here first others => exact .cons first others
  | later first stands ih => exact .cons first ih

/-- In a sequence that is written as it is, every form is written as it is. -/
theorem write_eq {write : α → List UInt8} (stands : Stands form front value bytes values)
    (shrinks : ∀ front value, form front value → (write value).length ≤ front.length)
    (same : values.flatMap write = bytes) : write value = front := by
  induction stands with
  | here first others =>
      rw [List.flatMap_cons] at same
      exact (append_eq_append_of_length_le same (shrinks _ _ first)
        (others.length_flatMap_le shrinks)).1
  | later first stands ih =>
      rw [List.flatMap_cons] at same
      exact ih (append_eq_append_of_length_le same (shrinks _ _ first)
        (stands.sequence.length_flatMap_le shrinks)).2

end Stands

/-- A sequence is written as it is if every form in it is. -/
theorem flatMap_eq {write : α → List UInt8} (sequence : Sequence form bytes values)
    (same : ∀ front value, Stands form front value bytes values → write value = front) :
    values.flatMap write = bytes := by
  induction sequence with
  | nil => rfl
  | cons first others ih =>
      rw [List.flatMap_cons, same _ _ (.here first others)]
      rw [ih fun front value stands => same front value (.later first stands)]

end Sequence

end ActionStream
