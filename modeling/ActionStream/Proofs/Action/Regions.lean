import ActionStream.Proofs.Action.BlockWritten
import ActionStream.Proofs.Wire.Outcome

/-!
# The regions of an action

A function on regions carries over to actions with regions: it changes every region and nothing
else.  A visit that reads regions reads one behind the other; a visit that checks regions gives
the results in their places; and a visit fails only as its rounds do.
-/

namespace ActionStream

namespace Block

variable {Source Target Last : Type}

/-- Puts the value of a function in the place of every region. -/
def map (function : Source → Target) : Block Source → Block Target
  | defineFunction name params body => defineFunction name params (function body)
  | defineFunction2 name registerCount flags params body =>
    defineFunction2 name registerCount flags params (function body)
  | tryCatch tryBody target catchBody finallyBody =>
    tryCatch (function tryBody) target (function catchBody) (function finallyBody)
  | withObject body => withObject (function body)

section

variable (function : Source → Target) (fields : Block Source)

@[simp]
theorem kind_map : (fields.map function).kind = fields.kind := by
  cases fields <;> rfl

@[simp]
theorem opcode_map : (fields.map function).opcode = fields.opcode := by
  cases fields <;> rfl

@[simp]
theorem regions_map : (fields.map function).regions = fields.regions.map function := by
  cases fields <;> rfl

@[simp]
theorem headerSize_map (context : Context) :
    (fields.map function).headerSize context = fields.headerSize context := by
  cases fields <;> rfl

@[simp]
theorem map_map (next : Target → Last) :
    (fields.map function).map next = fields.map fun region => next (function region) := by
  cases fields <;> rfl

theorem map_id : fields.map (fun region => region) = fields := by
  cases fields <;> rfl

theorem map_congr {other : Source → Target}
    (same : ∀ region ∈ fields.regions, function region = other region) :
    fields.map function = fields.map other := by
  cases fields <;> simp_all [map, regions]

@[simp]
theorem writable_map (context : Context) :
    (fields.map function).Writable context ↔ fields.Writable context := by
  cases fields <;> rfl

@[simp]
theorem registered_map : (fields.map function).Registered ↔ fields.Registered := by
  cases fields <;> rfl

@[simp]
theorem unreserved_map : (fields.map function).Unreserved ↔ fields.Unreserved := by
  cases fields <;> rfl

end

/-- Regions are read one behind the other, each in a form that its place in the header asks for. -/
theorem accepts_visit {marks : List Nat} {read : Source → Reader Target}
    {form : Source → Form Target}
    (accepts : ∀ source, Reader.Accepts marks (read source) (form source))
    (fields : Block Source) :
    Reader.Accepts marks (fields.visit read) fun front result =>
      ∃ parts : Block (Source × List UInt8 × Target),
        (parts.map fun part => part.1) = fields ∧ (parts.map fun part => part.2.2) = result ∧
          (∀ part ∈ parts.regions, form part.1 part.2.1 part.2.2) ∧
          front = parts.regions.flatMap fun part => part.2.1 := by
  cases fields with
  | defineFunction name params body =>
      have composed : Reader.Accepts marks _ _ :=
        (accepts body).andReturn (defineFunction name params)
      refine Reader.Accepts.congr composed fun front result => ?_
      constructor
      · rintro ⟨region, first, rfl⟩
        exact ⟨defineFunction name params (body, front, region), rfl, rfl,
          List.forall_mem_singleton.mpr first, by simp [regions]⟩
      · rintro ⟨parts, same, rfl, forms, rfl⟩
        cases parts <;> cases same
        next part => exact ⟨part.2.2, by simpa [regions] using forms, rfl⟩
  | defineFunction2 name registerCount flags params body =>
      have composed : Reader.Accepts marks _ _ :=
        (accepts body).andReturn (defineFunction2 name registerCount flags params)
      refine Reader.Accepts.congr composed fun front result => ?_
      constructor
      · rintro ⟨region, first, rfl⟩
        exact ⟨defineFunction2 name registerCount flags params (body, front, region), rfl, rfl,
          List.forall_mem_singleton.mpr first, by simp [regions]⟩
      · rintro ⟨parts, same, rfl, forms, rfl⟩
        cases parts <;> cases same
        next part => exact ⟨part.2.2, by simpa [regions] using forms, rfl⟩
  | tryCatch tryBody target catchBody finallyBody =>
      have composed : Reader.Accepts marks _ _ := (accepts tryBody).bind fun tryResult =>
        (accepts catchBody).bind fun catchResult => (accepts finallyBody).andReturn
          fun finallyResult => tryCatch tryResult target catchResult finallyResult
      refine Reader.Accepts.congr composed fun front result => ?_
      constructor
      · rintro ⟨_, _, first, firstForm, ⟨_, _, second, secondForm, ⟨third, thirdForm, rfl⟩, rfl⟩,
          rfl⟩
        exact ⟨tryCatch (tryBody, _, first) target (catchBody, _, second) (finallyBody, _, third),
          rfl, rfl, by simpa [regions] using ⟨firstForm, secondForm, thirdForm⟩, by simp [regions]⟩
      · rintro ⟨parts, same, rfl, forms, rfl⟩
        cases parts <;> cases same
        next first second third =>
          simp only [regions, List.forall_mem_cons] at forms
          exact ⟨_, _, _, forms.1, ⟨_, _, _, forms.2.1, ⟨_, forms.2.2.1, rfl⟩, rfl⟩,
            by simp [regions]⟩
  | withObject body =>
      have composed : Reader.Accepts marks _ _ := (accepts body).andReturn withObject
      refine Reader.Accepts.congr composed fun front result => ?_
      constructor
      · rintro ⟨region, first, rfl⟩
        exact ⟨withObject (body, front, region), rfl, rfl,
          List.forall_mem_singleton.mpr first, by simp [regions]⟩
      · rintro ⟨parts, same, rfl, forms, rfl⟩
        cases parts <;> cases same
        next part => exact ⟨part.2.2, by simpa [regions] using forms, rfl⟩

/-- Regions are checked in order without writing anything. -/
theorem emits_visit {check : Source → Writer Target} {possible : Source → Prop}
    {function : Source → Target}
    (emits : ∀ source, Writer.Emits (check source) (possible source) [] (function source))
    (fields : Block Source) :
    Writer.Emits (fields.visit check) (∀ region ∈ fields.regions, possible region) []
      (fields.map function) := by
  cases fields with
  | defineFunction name params body =>
      have composed := (emits body).bind (fun result => pure (defineFunction name params result))
        (Writer.emits_pure _)
      exact composed.congr (by simp [regions])
  | defineFunction2 name registerCount flags params body =>
      have composed := (emits body).bind
        (fun result => pure (defineFunction2 name registerCount flags params result))
        (Writer.emits_pure _)
      exact composed.congr (by simp [regions])
  | tryCatch tryBody target catchBody finallyBody =>
      have composed := (emits tryBody).bind
        (fun tryResult => do
          let catchResult ← check catchBody
          let finallyResult ← check finallyBody
          return tryCatch tryResult target catchResult finallyResult)
        ((emits catchBody).bind _ ((emits finallyBody).bind _ (Writer.emits_pure _)))
      exact composed.congr (by simp [regions])
  | withObject body =>
      have composed := (emits body).bind (fun result => pure (withObject result))
        (Writer.emits_pure _)
      exact composed.congr (by simp [regions])

/-- A visit moves the state as far along a relation as its rounds do. -/
theorem moves_visit {σ ε : Type} {relation : σ → σ → Prop} [IsPreorder σ relation]
    {admits : ε → Prop} {onRegion : Source → EStateM ε σ Target}
    (moves : ∀ source, Moves relation admits (onRegion source)) (fields : Block Source) :
    Moves relation admits (fields.visit onRegion) := by
  cases fields with
  | tryCatch tryBody target catchBody finallyBody =>
      apply (moves tryBody).bind
      intro tryResult
      apply (moves catchBody).bind
      intro catchResult
      apply (moves finallyBody).bind
      intro finallyResult
      exact moves_pure (tryCatch tryResult target catchResult finallyResult)
  | _ => exact (moves _).bind fun _ => moves_pure _

end Block

end ActionStream
