import ActionStream.Proofs.Wire.Accepting

/-!
# Computations that differ only in where they stop

A strict computation restricts a lenient one when it does the same from every state, unless it stops
with a failure of an admitted kind.  The lenient one may then go on for as long as it likes, since
nothing of what it does afterwards can be compared.  Composed computations restrict each other as
soon as their parts do.
-/

namespace ActionStream

variable {σ ε α β : Type} {admits : ε → Prop}

/-- From every state the strict computation does what the lenient one does, or it stops with an
admitted failure. -/
def Restricts (admits : ε → Prop) (strict lenient : EStateM ε σ α) : Prop :=
  ∀ state, strict state = lenient state ∨
    ∃ error after, strict state = .error error after ∧ admits error

section Combinators

variable {strict lenient : EStateM ε σ α}

theorem restricts_refl (run : EStateM ε σ α) : Restricts admits run run :=
  fun _ => .inl rfl

theorem restricts_throw {error : ε} (admitted : admits error) (lenient : EStateM ε σ α) :
    Restricts admits (throw error) lenient :=
  fun state => .inr ⟨error, state, rfl, admitted⟩

/-- Where the first parts do the same, the rest is reached with the same value and state. -/
theorem Restricts.bind {next nextLenient : α → EStateM ε σ β}
    (first : Restricts admits strict lenient)
    (second : ∀ value, Restricts admits (next value) (nextLenient value)) :
    Restricts admits (strict >>= next) (lenient >>= nextLenient) := by
  intro state
  rcases first state with same | ⟨error, after, stopped, admitted⟩
  · cases outcome : lenient state with
    | ok value after =>
        rw [outcome] at same
        rw [bind_of_ok same, bind_of_ok outcome]
        exact second value after
    | error error after =>
        rw [outcome] at same
        rw [bind_of_error same, bind_of_error outcome]
        exact .inl rfl
  · exact .inr ⟨error, after, bind_of_error stopped, admitted⟩

theorem Restricts.map {function : α → β} (restricts : Restricts admits strict lenient) :
    Restricts admits (function <$> strict) (function <$> lenient) :=
  restricts.bind fun value => restricts_refl (pure (function value))

theorem Restricts.ite {condition : Prop} [Decidable condition]
    {otherStrict otherLenient : EStateM ε σ α} (restricts : Restricts admits strict lenient)
    (otherwise : Restricts admits otherStrict otherLenient) :
    Restricts admits (if condition then strict else otherStrict)
      (if condition then lenient else otherLenient) := by
  split
  · exact restricts
  · exact otherwise

end Combinators

namespace Reader

open MonadCursor (untilEnd untilEndOnto)

variable {admits : CodecError → Prop} {strict lenient : Reader α}

/-- Restriction on an input of its own carries over to the outer input. -/
theorem restricts_within (input : Cursor) (restricts : Restricts admits strict lenient) :
    Restricts admits (within input strict) (within input lenient) := by
  unfold within
  rcases restricts input with same | ⟨error, left, stopped, admitted⟩
  · rw [same]
    exact restricts_refl _
  · rw [stopped]
    exact restricts_throw admitted _

theorem restricts_untilEndOnto (restricts : Restricts admits strict lenient) (found : List α)
    (rounds : Nat) :
    Restricts admits (untilEndOnto strict found rounds) (untilEndOnto lenient found rounds) := by
  induction rounds generalizing found with
  | zero => exact restricts_refl _
  | succ rounds ih =>
      intro cursor
      rw [untilEndOnto_succ, untilEndOnto_succ]
      split
      · exact .inl rfl
      · exact restricts.bind (fun value => ih (value :: found)) cursor

theorem restricts_untilEnd (restricts : Restricts admits strict lenient) :
    Restricts admits (untilEnd strict) (untilEnd lenient) :=
  fun cursor => restricts_untilEndOnto restricts [] cursor.remaining cursor

end Reader

end ActionStream
