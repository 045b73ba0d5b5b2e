import ActionStream.Action.Checked
import ActionStream.Proofs.Action.RoundTrip

/-!
# What the checked constructors let through

A construction succeeds exactly if the fields obey the rules of their kind, and then it gives them
back as they are.  Actions that are built this way, like those that were decoded, are producible: no
opaque action has an opcode with a form of its own, and no parameter is bound to register zero.
-/

namespace ActionStream

/-- A computation behind a check succeeds if both do. -/
theorem check_bind_eq_ok_iff {ε α : Type} {check : Except ε Unit} {next : Except ε α} {value : α} :
    (check >>= fun _ => next) = .ok value ↔ check = .ok () ∧ next = .ok value := by
  cases check <;> simp [bind, Except.bind]

theorem forM_eq_ok_iff {ε α : Type} {check : α → Except ε Unit} {values : List α} :
    values.forM check = .ok () ↔ ∀ value ∈ values, check value = .ok () := by
  induction values with
  | nil => exact iff_of_true rfl (List.forall_mem_nil _)
  | cons value values ih =>
      change (check value >>= fun _ => values.forM check) = _ ↔ _
      rw [check_bind_eq_ok_iff, List.forall_mem_cons, ih]

theorem checkParamCount_eq_ok_iff {count : Nat} :
    checkParamCount count = .ok () ↔ count ≤ 65535 := by
  unfold checkParamCount
  split
  next fits => simp [fits]
  next tooMany => simp [tooMany]

/-- A parameter that is bound to a register other than zero that its function has. -/
def RegisterParam.BoundBelow (registerCount : UInt8) (param : RegisterParam) : Prop :=
  ∀ register, param.register = some register →
    register.value ≠ 0 ∧ register.value < registerCount

theorem checkParamRegister_eq_ok_iff {registerCount : UInt8} {param : RegisterParam} :
    checkParamRegister registerCount param = .ok () ↔ param.BoundBelow registerCount := by
  unfold checkParamRegister RegisterParam.BoundBelow
  cases param.register with
  | none => simp
  | some register =>
      simp only [Option.some.injEq, forall_eq']
      split
      next refused =>
        refine iff_of_false (by simp) fun bound => ?_
        exact refused.elim bound.1 (UInt8.not_le.mpr bound.2)
      next allowed =>
        rw [not_or, UInt8.not_le] at allowed
        exact iff_of_true rfl allowed

namespace Block

variable {Region : Type}

/-- The fields of an action with regions obey the rules of their kind. -/
def Lawful : Block Region → Prop
  | defineFunction _ params _ => params.length ≤ 65535
  | defineFunction2 _ registerCount flags params _ =>
    params.length ≤ 65535 ∧ flags.reserved = 0 ∧
      ∀ param ∈ params, param.BoundBelow registerCount
  | tryCatch _ _ _ _ | withObject _ => True

theorem checked_eq_ok_iff {fields built : Block Region} :
    fields.checked = .ok built ↔ fields.Lawful ∧ built = fields := by
  cases fields with
  | defineFunction name params body =>
      change (checkParamCount params.length >>= fun _ => .ok _) = _ ↔ _
      rw [check_bind_eq_ok_iff, checkParamCount_eq_ok_iff, Except.ok.injEq, eq_comm, Lawful]
  | defineFunction2 name registerCount flags params body =>
      rw [checked, check_bind_eq_ok_iff, checkParamCount_eq_ok_iff, Lawful, and_assoc]
      refine and_congr_right fun _ => ?_
      by_cases unreserved : flags.reserved = 0
      · simp only [unreserved, ne_eq, not_true_eq_false, if_false, true_and]
        rw [check_bind_eq_ok_iff, forM_eq_ok_iff]
        simp only [checkParamRegister_eq_ok_iff, pure, Except.pure, Except.ok.injEq,
          @eq_comm _ built]
      · refine iff_of_false ?_ fun lawful => unreserved lawful.1.1
        simp only [ne_eq, unreserved, not_false_eq_true, if_true]
        rintro ⟨⟩
  | tryCatch tryBody target catchBody finallyBody => simp [checked, Lawful, eq_comm]
  | withObject body => simp [checked, Lawful, eq_comm]

/-- No register is zero if every register is a bound one. -/
theorem Lawful.registered {fields : Block Region} (lawful : fields.Lawful) :
    fields.Registered := by
  cases fields with
  | defineFunction2 name registerCount flags params body =>
      intro param member isZero
      exact (lawful.2.2 param member ⟨0⟩ isZero).1 rfl
  | _ => trivial

end Block

namespace Action

theorem unknownChecked_eq_ok_iff {opcode : UInt8} {body : List UInt8} {action : Action} :
    unknownChecked opcode body = .ok action ↔
      isKnownOpcode opcode = false ∧ body.length ≤ greatestUnknownLength opcode ∧
        action = .unknown opcode body := by
  unfold unknownChecked
  cases isKnownOpcode opcode with
  | true => simp
  | false =>
      by_cases fits : body.length ≤ greatestUnknownLength opcode
      · simp [fits, eq_comm]
      · simp [fits]

theorem producible_of_unknownChecked {opcode : UInt8} {body : List UInt8} {action : Action}
    (built : unknownChecked opcode body = .ok action) : action.Producible := by
  obtain ⟨unnamed, short, rfl⟩ := unknownChecked_eq_ok_iff.mp built
  refine ⟨unnamed, fun fixed => ?_⟩
  rw [greatestUnknownLength, if_pos fixed] at short
  exact List.length_eq_zero_iff.mp (Nat.le_zero.mp short)

theorem producible_of_checked {fields built : Block (List Action)}
    (success : fields.checked = .ok built) : (block built).Producible := by
  obtain ⟨lawful, rfl⟩ := Block.checked_eq_ok_iff.mp success
  exact lawful.registered

theorem producible_of_decodeAll {context : Context} {bytes : List UInt8} {actions : List Action}
    (decoded : decodeAll context bytes = .ok actions) : Throughout Producible actions :=
  (stream_of_decodeAll decoded).1.throughout fun _ _ form => form.producible

end Action

end ActionStream
