import ActionStream.Proofs.Wire.Accepting
import Mathlib.Order.Defs.Unbundled

/-!
# What holds however a computation ends

A computation on a state leaves a state behind whether it succeeds or fails.  It moves along a
relation when the state that it leaves is related to the one that it found in both cases.  Together
with the failures that are admitted this is known of a composed computation once it is known of its
parts.
-/

namespace ActionStream

variable {σ ε α β : Type} {relation : σ → σ → Prop} {admits : ε → Prop}

/-- An outcome that leaves a state related to the given one, and that is a success or an admitted
failure. -/
def EndsAlong (relation : σ → σ → Prop) (admits : ε → Prop) (state : σ) :
    EStateM.Result ε σ α → Prop
  | .ok _ after => relation state after
  | .error error after => relation state after ∧ admits error

/-- A computation moves the state along a relation and fails only in admitted ways. -/
def Moves (relation : σ → σ → Prop) (admits : ε → Prop) (run : EStateM ε σ α) : Prop :=
  ∀ state, EndsAlong relation admits state (run state)

section Outcomes

variable {run : EStateM ε σ α} {state after : σ}

theorem Moves.of_ok (moves : Moves relation admits run) {value : α}
    (success : run state = .ok value after) : relation state after := by
  have outcome := moves state
  rwa [success] at outcome

theorem Moves.of_error (moves : Moves relation admits run) {error : ε}
    (failure : run state = .error error after) : relation state after ∧ admits error := by
  have outcome := moves state
  rwa [failure] at outcome

theorem EndsAlong.trans [IsTrans σ relation] {outcome : EStateM.Result ε σ α}
    (ends : EndsAlong relation admits after outcome) (related : relation state after) :
    EndsAlong relation admits state outcome := by
  cases outcome with
  | ok value last => exact IsTrans.trans _ _ _ related ends
  | error error last => exact ⟨IsTrans.trans _ _ _ related ends.1, ends.2⟩

theorem Moves.mono {other : ε → Prop} (moves : Moves relation admits run)
    (weaken : ∀ error, admits error → other error) : Moves relation other run := by
  intro state
  have outcome := moves state
  cases result : run state with
  | ok value after => rwa [result] at outcome
  | error error after =>
      rw [result] at outcome
      exact ⟨outcome.1, weaken error outcome.2⟩

theorem Moves.ite {condition : Prop} [Decidable condition] {alternative : EStateM ε σ α}
    (moves : Moves relation admits run) (otherwise : Moves relation admits alternative) :
    Moves relation admits (if condition then run else alternative) := by
  split
  · exact moves
  · exact otherwise

end Outcomes

section Combinators

variable [IsPreorder σ relation] {run : EStateM ε σ α}

theorem moves_pure (value : α) : Moves relation admits (pure value) :=
  fun state => refl_of relation state

theorem moves_throw {error : ε} (admitted : admits error) :
    Moves relation admits (throw error : EStateM ε σ α) :=
  fun state => ⟨refl_of relation state, admitted⟩

/-- The second part of a composed computation runs only on what the first part can leave. -/
theorem Moves.bindOk {next : α → EStateM ε σ β} (first : Moves relation admits run)
    (second : ∀ state value after, run state = .ok value after →
      Moves relation admits (next value)) : Moves relation admits (run >>= next) := by
  intro state
  cases outcome : run state with
  | ok value after =>
      rw [bind_of_ok outcome]
      exact (second state value after outcome after).trans (first.of_ok outcome)
  | error error after =>
      rw [bind_of_error outcome]
      exact first.of_error outcome

theorem Moves.bind {next : α → EStateM ε σ β} (first : Moves relation admits run)
    (second : ∀ value, Moves relation admits (next value)) :
    Moves relation admits (run >>= next) :=
  first.bindOk fun _ value _ _ => second value

theorem Moves.map {function : α → β} (moves : Moves relation admits run) :
    Moves relation admits (function <$> run) :=
  moves.bind fun value => moves_pure (function value)

end Combinators

end ActionStream
