import ActionStream.Action.Basic
import ActionStream.Proofs.Action.Regions

/-!
# Actions as trees

An action with regions is a node, its regions are lists of subtrees.  This module has the induction
over such trees, the actions that a list contains at every depth, and the number of regions that are
open at a time when a list is visited.
-/

namespace ActionStream

namespace Action

/-- A property of all actions follows for an action with regions from the actions in its regions. -/
@[elab_as_elim]
theorem induction {holds : Action → Prop} (basic : ∀ op, holds (.basic op))
    (plain : ∀ fields, holds (.plain fields))
    (block : ∀ fields : Block (List Action),
      (∀ region ∈ fields.regions, ∀ inner ∈ region, holds inner) → holds (.block fields))
    (call : holds .call) (unknown : ∀ opcode body, holds (.unknown opcode body))
    (action : Action) : holds action := by
  refine Action.rec (motive_1 := holds)
    (motive_2 := fun fields => ∀ region ∈ fields.regions, ∀ inner ∈ region, holds inner)
    (motive_3 := fun region => ∀ inner ∈ region, holds inner)
    basic plain block call unknown ?_ ?_ ?_ ?_ ?_ ?_ action
  · intro name params body bodyHolds
    simpa [Block.regions] using bodyHolds
  · intro name registerCount flags params body bodyHolds
    simpa [Block.regions] using bodyHolds
  · intro tryBody target catchBody finallyBody tryHolds catchHolds finallyHolds
    simpa [Block.regions] using ⟨tryHolds, catchHolds, finallyHolds⟩
  · intro body bodyHolds
    simpa [Block.regions] using bodyHolds
  · simp
  · intro first rest firstHolds restHolds
    exact List.forall_mem_cons.mpr ⟨firstHolds, restHolds⟩

mutual

/-- An action and the actions inside it at every depth. -/
def contents : Action → List Action
  | block fields => block fields :: regionsContents fields
  | action => [action]

/-- The actions in the regions of an action at every depth. -/
def regionsContents : Block (List Action) → List Action
  | .defineFunction _ _ body => allContents body
  | .defineFunction2 _ _ _ _ body => allContents body
  | .tryCatch tryBody _ catchBody finallyBody =>
    allContents tryBody ++ (allContents catchBody ++ allContents finallyBody)
  | .withObject body => allContents body

/-- The actions of a list at every depth. -/
def allContents : List Action → List Action
  | [] => []
  | first :: rest => contents first ++ allContents rest

end

/-- A property of every action that a list contains at any depth. -/
def Throughout (holds : Action → Prop) (actions : List Action) : Prop :=
  ∀ action ∈ allContents actions, holds action

instance (holds : Action → Prop) [DecidablePred holds] (actions : List Action) :
    Decidable (Throughout holds actions) :=
  inferInstanceAs (Decidable (∀ action ∈ allContents actions, holds action))

theorem regionsContents_eq_flatMap (fields : Block (List Action)) :
    regionsContents fields = fields.regions.flatMap allContents := by
  cases fields <;> simp [regionsContents, Block.regions]

section

variable {holds : Action → Prop} {actions rest : List Action} {action first : Action}

theorem throughout_nil : Throughout holds [] :=
  List.forall_mem_nil _

theorem throughout_cons :
    Throughout holds (first :: rest) ↔ Throughout holds [first] ∧ Throughout holds rest := by
  simp only [Throughout, allContents, List.append_nil, List.forall_mem_append]

theorem throughout_append :
    Throughout holds (actions ++ rest) ↔ Throughout holds actions ∧ Throughout holds rest := by
  induction actions with
  | nil => simp [throughout_nil]
  | cons first actions ih =>
      rw [List.cons_append, throughout_cons, ih, ← and_assoc, ← throughout_cons]

/-- What holds throughout a list holds throughout each of its members. -/
theorem Throughout.of_mem (throughout : Throughout holds actions) (member : action ∈ actions) :
    Throughout holds [action] := by
  induction actions with
  | nil => cases member
  | cons first rest ih =>
      obtain ⟨firstHolds, restHolds⟩ := throughout_cons.mp throughout
      cases member with
      | head => exact firstHolds
      | tail _ member => exact ih restHolds member

theorem throughout_iff_forall_mem :
    Throughout holds actions ↔ ∀ action ∈ actions, Throughout holds [action] := by
  constructor
  · exact fun throughout action member => throughout.of_mem member
  · intro each
    induction actions with
    | nil => exact throughout_nil
    | cons first rest ih =>
        rw [List.forall_mem_cons] at each
        exact throughout_cons.mpr ⟨each.1, ih each.2⟩

/-- A property holds throughout an action with regions if it holds of the action and throughout its
regions. -/
theorem throughout_block {fields : Block (List Action)} :
    Throughout holds [block fields] ↔
      holds (block fields) ∧ ∀ region ∈ fields.regions, Throughout holds region := by
  simp only [Throughout, allContents, contents, regionsContents_eq_flatMap, List.append_nil,
    List.forall_mem_cons, List.forall_mem_flatMap]

/-- Inside an action without regions there is only the action itself. -/
theorem throughout_single (single : ∀ fields, first ≠ block fields) :
    Throughout holds [first] ↔ holds first := by
  cases first with
  | block fields => exact absurd rfl (single fields)
  | _ => simp [Throughout, allContents, contents]

theorem Throughout.self (throughout : Throughout holds [first]) : holds first := by
  cases first with
  | block fields => exact (throughout_block.mp throughout).1
  | _ => exact (throughout_single (by simp)).mp throughout

/-- What holds throughout an action holds throughout every action inside it. -/
theorem Throughout.inside (throughout : Throughout holds [action]) :
    Throughout (fun inner => Throughout holds [inner]) [action] := by
  induction action using induction with
  | block fields ih =>
      refine throughout_block.mpr ⟨throughout, fun region ofFields => ?_⟩
      have regionHolds := (throughout_block.mp throughout).2 region ofFields
      rw [throughout_iff_forall_mem]
      intro inner member
      exact ih region ofFields inner member (regionHolds.of_mem member)
  | _ => exact (throughout_single (by simp)).mpr throughout

end

mutual

/-- The number of regions that are open at a time inside an action. -/
def nesting : Action → Nat
  | block fields => regionsNesting fields
  | _ => 0

/-- The number of regions of an action that are open at a time. -/
def regionsNesting : Block (List Action) → Nat
  | .defineFunction _ _ body => openNesting body
  | .defineFunction2 _ _ _ _ body => openNesting body
  | .tryCatch tryBody _ catchBody finallyBody =>
    max (openNesting tryBody) (max (openNesting catchBody) (openNesting finallyBody))
  | .withObject body => openNesting body

/-- The number of regions open at a time when a list is a region; an empty one is not opened. -/
def openNesting : List Action → Nat
  | [] => 0
  | first :: rest => 1 + max (nesting first) (listNesting rest)

/-- The number of regions that are open at a time inside a list of actions. -/
def listNesting : List Action → Nat
  | [] => 0
  | first :: rest => max (nesting first) (listNesting rest)

end

theorem listNesting_le_iff {actions : List Action} {levels : Nat} :
    listNesting actions ≤ levels ↔ ∀ action ∈ actions, action.nesting ≤ levels := by
  induction actions with
  | nil => simp [listNesting]
  | cons first rest ih => rw [listNesting, Nat.max_le, ih, List.forall_mem_cons]

theorem openNesting_le_zero_iff {region : List Action} : openNesting region ≤ 0 ↔ region = [] := by
  cases region <;> simp [openNesting]

/-- An open region takes one level; what is left is for the actions inside. -/
theorem openNesting_le_succ_iff {region : List Action} {levels : Nat} :
    openNesting region ≤ levels + 1 ↔ ∀ action ∈ region, action.nesting ≤ levels := by
  rw [← listNesting_le_iff]
  cases region with
  | nil => simp [openNesting, listNesting]
  | cons first rest =>
      rw [openNesting, listNesting]
      omega

theorem nesting_block_le_iff {fields : Block (List Action)} {levels : Nat} :
    (block fields).nesting ≤ levels ↔ ∀ region ∈ fields.regions, openNesting region ≤ levels := by
  rw [nesting]
  cases fields <;>
    simp only [regionsNesting, Block.regions, Nat.max_le, List.forall_mem_cons,
      List.not_mem_nil, false_imp_iff, implies_true, and_true]

end Action

end ActionStream
