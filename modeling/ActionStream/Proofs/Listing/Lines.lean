import ActionStream.Proofs.Action.Tree
import ActionStream.Proofs.Json.Spelling
import ActionStream.Proofs.Listing.OneLine
import Mathlib.Data.List.Forall2

/-!
# The lines of a listing

A listing is meant to have one line for an action without regions, and two lines around every region
that is shown, each indented by two spaces for every region that it is in.  The names of functions,
of their parameters and of caught values are shown as they are, and a line end in such a name is the
only way to other lines.
-/

namespace ActionStream

/-- A text that consists of some lines, each with a line end behind it. -/
structure ConsistsOf (text : String) (lines : List String) : Prop where
  toList_eq : text.toList = lines.flatMap fun line => line.toList ++ ['\n']
  oneLine : ∀ line ∈ lines, OneLine line

/-- Two spaces for every level of a depth, and no more. -/
def IndentedBy (depth : Nat) (line : String) : Prop :=
  ∃ first rest, line.toList = List.replicate (2 * depth) ' ' ++ first :: rest ∧ first ≠ ' '

namespace Listing

mutual

/-- The number of lines that an action is meant to have. -/
def lineCount : Action → Nat
  | .block fields => blockLineCount fields
  | .basic _ | .plain _ | .call | .unknown _ _ => 1

def blockLineCount : Block (List Action) → Nat
  | .defineFunction _ _ body => 2 + allLineCount body
  | .defineFunction2 _ _ _ _ body => 2 + allLineCount body
  | .withObject body => 2 + allLineCount body
  | .tryCatch tryBody _ catchBody finallyBody =>
    2 + allLineCount tryBody + (if catchBody.isEmpty then 0 else 2 + allLineCount catchBody) +
      (if finallyBody.isEmpty then 0 else 2 + allLineCount finallyBody)

def allLineCount : List Action → Nat
  | [] => 0
  | first :: rest => lineCount first + allLineCount rest

end

mutual

/-- The depths of the lines of an action that stands at a depth. -/
def lineDepths (depth : Nat) : Action → List Nat
  | .block fields => blockLineDepths depth fields
  | .basic _ | .plain _ | .call | .unknown _ _ => [depth]

def blockLineDepths (depth : Nat) : Block (List Action) → List Nat
  | .defineFunction _ _ body => [depth] ++ allLineDepths (depth + 1) body ++ [depth]
  | .defineFunction2 _ _ _ _ body => [depth] ++ allLineDepths (depth + 1) body ++ [depth]
  | .withObject body => [depth] ++ allLineDepths (depth + 1) body ++ [depth]
  | .tryCatch tryBody _ catchBody finallyBody =>
    [depth] ++ allLineDepths (depth + 1) tryBody ++ [depth] ++
      (if catchBody.isEmpty then []
        else [depth] ++ allLineDepths (depth + 1) catchBody ++ [depth]) ++
      (if finallyBody.isEmpty then []
        else [depth] ++ allLineDepths (depth + 1) finallyBody ++ [depth])

def allLineDepths (depth : Nat) : List Action → List Nat
  | [] => []
  | first :: rest => lineDepths depth first ++ allLineDepths depth rest

end

/-- The names in the lines of an action that are shown as they are. -/
def bareNames : Action → List String
  | .block (.defineFunction name params _) => name :: params
  | .block (.defineFunction2 name _ _ params _) => name :: params.map RegisterParam.name
  | .block (.tryCatch _ target catchBody _) => if catchBody.isEmpty then [] else catchNames target
  | .block (.withObject _) | .basic _ | .plain _ | .call | .unknown _ _ => []

/-- An action without a line end in a name that its lines show as it is. -/
def NamesUnbroken (action : Action) : Prop :=
  ∀ name ∈ bareNames action, OneLine name

/-- A line as it is put together: its depth, and what stands behind the indentation. -/
structure Entry where
  depth : Nat
  content : String

def Entry.text (entry : Entry) : String :=
  line entry.depth entry.content

section Entries

/-- The lines of a region between braces. -/
def bracketed (depth : Nat) (title : String) (inside : List Entry) : List Entry :=
  ⟨depth, title ++ " \x7b"⟩ :: (inside ++ [⟨depth, "\x7d"⟩])

mutual

/-- The lines of an action, which are the same whatever stands in front of them. -/
def entries (depth : Nat) : Action → List Entry
  | .block fields => blockEntries depth fields
  | .basic op => [⟨depth, op.name⟩]
  | .plain fields => [⟨depth, fields.text⟩]
  | .call => [⟨depth, Action.call.text⟩]
  | .unknown opcode body => [⟨depth, (Action.unknown opcode body).text⟩]

def blockEntries (depth : Nat) : Block (List Action) → List Entry
  | .defineFunction name params body =>
    bracketed depth (Block.defineFunction name params ()).text (allEntries (depth + 1) body)
  | .defineFunction2 name registerCount flags params body =>
    bracketed depth (Block.defineFunction2 name registerCount flags params ()).text
      (allEntries (depth + 1) body)
  | .withObject body => bracketed depth "With" (allEntries (depth + 1) body)
  | .tryCatch tryBody target catchBody finallyBody =>
    bracketed depth "try" (allEntries (depth + 1) tryBody) ++
      (if catchBody.isEmpty then []
        else bracketed depth (catchTitle target) (allEntries (depth + 1) catchBody)) ++
      (if finallyBody.isEmpty then []
        else bracketed depth "finally" (allEntries (depth + 1) finallyBody))

def allEntries (depth : Nat) : List Action → List Entry
  | [] => []
  | first :: rest => entries depth first ++ allEntries depth rest

end

/-- A region adds its lines between two lines of its own. -/
theorem toList_between (depth : Nat) (title : String) {region : Array String → Array String}
    {inside : List Entry}
    (adds : ∀ lines, (region lines).toList = lines.toList ++ inside.map Entry.text)
    (lines : Array String) :
    (between depth title region lines).toList =
      lines.toList ++ (bracketed depth title inside).map Entry.text := by
  simp [between, bracketed, adds, Entry.text]

mutual

/-- The lines so far are kept, and the lines of an action are added to them. -/
theorem toList_actionOnto (depth : Nat) (lines : Array String) : (action : Action) →
    (actionOnto depth lines action).toList = lines.toList ++ (entries depth action).map Entry.text
  | .block fields => toList_blockOnto depth lines fields
  | .basic _ | .plain _ | .call | .unknown _ _ => by
    simp [actionOnto, entries, Entry.text]

theorem toList_blockOnto (depth : Nat) (lines : Array String) : (fields : Block (List Action)) →
    (blockOnto depth lines fields).toList =
      lines.toList ++ (blockEntries depth fields).map Entry.text
  | .defineFunction _ _ body =>
    toList_between depth _ (fun lines => toList_actionsOnto (depth + 1) lines body) lines
  | .defineFunction2 _ _ _ _ body =>
    toList_between depth _ (fun lines => toList_actionsOnto (depth + 1) lines body) lines
  | .withObject body =>
    toList_between depth _ (fun lines => toList_actionsOnto (depth + 1) lines body) lines
  | .tryCatch tryBody target catchBody finallyBody => by
    have tried := toList_between depth "try"
      (fun lines => toList_actionsOnto (depth + 1) lines tryBody)
    have caught := toList_between depth (catchTitle target)
      (fun lines => toList_actionsOnto (depth + 1) lines catchBody)
    have left := toList_between depth "finally"
      (fun lines => toList_actionsOnto (depth + 1) lines finallyBody)
    simp only [blockOnto, blockEntries]
    split_ifs <;> simp [tried, caught, left]

theorem toList_actionsOnto (depth : Nat) (lines : Array String) : (actions : List Action) →
    (actionsOnto depth lines actions).toList =
      lines.toList ++ (allEntries depth actions).map Entry.text
  | [] => by simp [actionsOnto, allEntries]
  | first :: rest => by
    rw [actionsOnto, toList_actionsOnto depth _ rest, toList_actionOnto depth lines first]
    simp [allEntries]

end

mutual

theorem map_depth_entries (depth : Nat) : (action : Action) →
    (entries depth action).map Entry.depth = lineDepths depth action
  | .block fields => map_depth_blockEntries depth fields
  | .basic _ | .plain _ | .call | .unknown _ _ => rfl

theorem map_depth_blockEntries (depth : Nat) : (fields : Block (List Action)) →
    (blockEntries depth fields).map Entry.depth = blockLineDepths depth fields
  | .defineFunction _ _ body | .defineFunction2 _ _ _ _ body | .withObject body => by
    simp [blockEntries, blockLineDepths, bracketed, map_depth_allEntries (depth + 1) body]
  | .tryCatch tryBody target catchBody finallyBody => by
    have tried := map_depth_allEntries (depth + 1) tryBody
    have caught := map_depth_allEntries (depth + 1) catchBody
    have left := map_depth_allEntries (depth + 1) finallyBody
    simp only [blockEntries, blockLineDepths]
    split_ifs <;> simp [bracketed, tried, caught, left]

theorem map_depth_allEntries (depth : Nat) : (actions : List Action) →
    (allEntries depth actions).map Entry.depth = allLineDepths depth actions
  | [] => rfl
  | first :: rest => by
    rw [allEntries, allLineDepths, List.map_append, map_depth_entries depth first,
      map_depth_allEntries depth rest]

end

mutual

theorem length_lineDepths (depth : Nat) : (action : Action) →
    (lineDepths depth action).length = lineCount action
  | .block fields => length_blockLineDepths depth fields
  | .basic _ | .plain _ | .call | .unknown _ _ => rfl

theorem length_blockLineDepths (depth : Nat) : (fields : Block (List Action)) →
    (blockLineDepths depth fields).length = blockLineCount fields
  | .defineFunction _ _ body | .defineFunction2 _ _ _ _ body | .withObject body => by
    have inside := length_allLineDepths (depth + 1) body
    simp only [blockLineDepths, blockLineCount, List.length_append, List.length_singleton]
    omega
  | .tryCatch tryBody target catchBody finallyBody => by
    have tried := length_allLineDepths (depth + 1) tryBody
    have caught := length_allLineDepths (depth + 1) catchBody
    have left := length_allLineDepths (depth + 1) finallyBody
    simp only [blockLineDepths, blockLineCount]
    split_ifs <;> simp only [List.length_append, List.length_singleton, List.length_nil] <;> omega

theorem length_allLineDepths (depth : Nat) : (actions : List Action) →
    (allLineDepths depth actions).length = allLineCount actions
  | [] => rfl
  | first :: rest => by
    rw [allLineDepths, allLineCount, List.length_append, length_lineDepths depth first,
      length_allLineDepths depth rest]

end

section Contents

variable {holds : String → Prop} {depth : Nat} {title : String} {inside : List Entry}

theorem forall_mem_bracketed :
    (∀ entry ∈ bracketed depth title inside, holds entry.content) ↔
      holds (title ++ " \x7b") ∧ (∀ entry ∈ inside, holds entry.content) ∧ holds "\x7d" := by
  rw [bracketed, List.forall_mem_cons, List.forall_mem_append, List.forall_mem_singleton]

theorem startsVisibly_bracketed (starts : StartsVisibly title)
    (insideHolds : ∀ entry ∈ inside, StartsVisibly entry.content) :
    ∀ entry ∈ bracketed depth title inside, StartsVisibly entry.content :=
  forall_mem_bracketed.mpr ⟨starts.append _, insideHolds, by decide⟩

theorem oneLine_bracketed :
    (∀ entry ∈ bracketed depth title inside, OneLine entry.content) ↔
      OneLine title ∧ ∀ entry ∈ inside, OneLine entry.content := by
  have braces : OneLine " \x7b" ∧ OneLine "\x7d" := by decide
  simp only [forall_mem_bracketed, oneLine_append, braces, and_true]

end Contents

mutual

theorem startsVisibly_entries (depth : Nat) : (action : Action) →
    ∀ entry ∈ entries depth action, StartsVisibly entry.content
  | .block fields => startsVisibly_blockEntries depth fields
  | .basic op => List.forall_mem_singleton.mpr op.startsVisibly_name
  | .plain fields => List.forall_mem_singleton.mpr fields.startsVisibly_text
  | .call => List.forall_mem_singleton.mpr (show StartsVisibly "Call" by decide)
  | .unknown _ _ => List.forall_mem_singleton.mpr Action.startsVisibly_unknown

theorem startsVisibly_blockEntries (depth : Nat) : (fields : Block (List Action)) →
    ∀ entry ∈ blockEntries depth fields, StartsVisibly entry.content
  | .defineFunction _ _ body =>
    startsVisibly_bracketed Block.startsVisibly_defineFunction
      (startsVisibly_allEntries (depth + 1) body)
  | .defineFunction2 _ _ _ _ body =>
    startsVisibly_bracketed Block.startsVisibly_defineFunction2
      (startsVisibly_allEntries (depth + 1) body)
  | .withObject body =>
    startsVisibly_bracketed (by decide) (startsVisibly_allEntries (depth + 1) body)
  | .tryCatch tryBody target catchBody finallyBody => by
    rw [blockEntries, List.forall_mem_append, List.forall_mem_append]
    refine ⟨⟨?_, ?_⟩, ?_⟩
    · exact startsVisibly_bracketed (by decide) (startsVisibly_allEntries (depth + 1) tryBody)
    · split_ifs
      · exact List.forall_mem_nil _
      · exact startsVisibly_bracketed startsVisibly_catchTitle
          (startsVisibly_allEntries (depth + 1) catchBody)
    · split_ifs
      · exact List.forall_mem_nil _
      · exact startsVisibly_bracketed (by decide) (startsVisibly_allEntries (depth + 1) finallyBody)

theorem startsVisibly_allEntries (depth : Nat) : (actions : List Action) →
    ∀ entry ∈ allEntries depth actions, StartsVisibly entry.content
  | [] => List.forall_mem_nil _
  | first :: rest =>
    List.forall_mem_append.mpr
      ⟨startsVisibly_entries depth first, startsVisibly_allEntries depth rest⟩

end

theorem throughout_namesUnbroken_single {action : Action}
    (single : ∀ fields, action ≠ .block fields) : Action.Throughout NamesUnbroken [action] := by
  rw [Action.throughout_single single]
  cases action with
  | block fields => exact absurd rfl (single fields)
  | _ => exact List.forall_mem_nil _

/-- The name of a caught value is shown only in front of a region for exceptions. -/
theorem namesUnbroken_tryCatch {tryBody catchBody finallyBody : List Action}
    {target : CatchTarget} :
    NamesUnbroken (.block (.tryCatch tryBody target catchBody finallyBody)) ↔
      (catchBody ≠ [] → OneLine (catchTitle target)) := by
  rw [NamesUnbroken, bareNames, oneLine_catchTitle]
  cases catchBody <;> simp

/-- A region that is left out when it is empty. -/
theorem oneLine_unlessEmpty {depth : Nat} {title : String} {region : List Action}
    {inside : List Entry}
    (insideHolds : (∀ entry ∈ inside, OneLine entry.content) ↔
      Action.Throughout NamesUnbroken region) :
    (∀ entry ∈ (if region.isEmpty then [] else bracketed depth title inside),
        OneLine entry.content) ↔
      (region ≠ [] → OneLine title) ∧ Action.Throughout NamesUnbroken region := by
  cases region with
  | nil => simp [Action.throughout_nil]
  | cons first rest =>
      rw [← insideHolds]
      simpa using oneLine_bracketed

mutual

/-- The lines of an action have the line ends of the names that are shown as they are. -/
theorem oneLine_entries (depth : Nat) : (action : Action) →
    ((∀ entry ∈ entries depth action, OneLine entry.content) ↔
      Action.Throughout NamesUnbroken [action])
  | .block fields => by
    rw [Action.throughout_block]
    exact oneLine_blockEntries depth fields
  | .basic op =>
    iff_of_true (List.forall_mem_singleton.mpr op.oneLine_name)
      (throughout_namesUnbroken_single (by simp))
  | .plain fields =>
    iff_of_true (List.forall_mem_singleton.mpr fields.oneLine_text)
      (throughout_namesUnbroken_single (by simp))
  | .call =>
    iff_of_true (List.forall_mem_singleton.mpr (show OneLine "Call" by decide))
      (throughout_namesUnbroken_single (by simp))
  | .unknown _ _ =>
    iff_of_true (List.forall_mem_singleton.mpr Action.oneLine_unknown)
      (throughout_namesUnbroken_single (by simp))

theorem oneLine_blockEntries (depth : Nat) : (fields : Block (List Action)) →
    ((∀ entry ∈ blockEntries depth fields, OneLine entry.content) ↔
      NamesUnbroken (.block fields) ∧
        ∀ region ∈ fields.regions, Action.Throughout NamesUnbroken region)
  | .defineFunction name params body => by
    rw [blockEntries, oneLine_bracketed, oneLine_allEntries (depth + 1) body,
      Block.oneLine_defineFunction, Block.regions, List.forall_mem_singleton]
    rfl
  | .defineFunction2 name registerCount flags params body => by
    rw [blockEntries, oneLine_bracketed, oneLine_allEntries (depth + 1) body,
      Block.oneLine_defineFunction2, Block.regions, List.forall_mem_singleton]
    rfl
  | .withObject body => by
    rw [blockEntries, oneLine_bracketed, oneLine_allEntries (depth + 1) body, Block.regions,
      List.forall_mem_singleton]
    exact and_congr_left fun _ => iff_of_true (by decide) (List.forall_mem_nil _)
  | .tryCatch tryBody target catchBody finallyBody => by
    -- A line end in the name of a caught value counts only if its region is shown; regions that are
    -- left out have no actions.
    have titles : OneLine "try" ∧ OneLine "finally" := by decide
    have caught := oneLine_allEntries (depth + 1) catchBody
    have left := oneLine_allEntries (depth + 1) finallyBody
    rw [blockEntries, List.forall_mem_append, List.forall_mem_append, oneLine_bracketed,
      oneLine_unlessEmpty caught, oneLine_unlessEmpty left, oneLine_allEntries (depth + 1) tryBody,
      namesUnbroken_tryCatch]
    simp [Block.regions, titles, and_assoc, and_left_comm]

theorem oneLine_allEntries (depth : Nat) : (actions : List Action) →
    ((∀ entry ∈ allEntries depth actions, OneLine entry.content) ↔
      Action.Throughout NamesUnbroken actions)
  | [] => iff_of_true (List.forall_mem_nil _) Action.throughout_nil
  | first :: rest => by
    rw [allEntries, List.forall_mem_append, oneLine_entries depth first,
      oneLine_allEntries depth rest, ← Action.throughout_cons]

end

end Entries

theorem toList_lines (actions : List Action) :
    (lines actions).toList = (allEntries 0 actions).map Entry.text := by
  rw [lines, toList_actionsOnto, List.nil_append]

theorem toList_line (depth : Nat) (content : String) :
    (line depth content).toList = List.replicate (2 * depth) ' ' ++ content.toList := by
  rw [line, String.toList_append, Json.Spacing.toList_pushn]
  rfl

theorem oneLine_line {depth : Nat} {content : String} :
    OneLine (line depth content) ↔ OneLine content := by
  rw [OneLine, toList_line]
  simp [OneLine]

theorem indentedBy_line {depth : Nat} {content : String} (starts : StartsVisibly content) :
    IndentedBy depth (line depth content) := by
  rw [StartsVisibly] at starts
  cases characters : content.toList with
  | nil => simp [characters] at starts
  | cons first rest =>
      refine ⟨first, rest, by rw [toList_line, characters], ?_⟩
      simpa [characters] using starts

end Listing

section Texts

variable {text : String} {lines : List String}

theorem toList_foldl_lines (text : String) (lines : List String) :
    (lines.foldl (fun text line => text ++ line ++ "\n") text).toList =
      text.toList ++ lines.flatMap fun line => line.toList ++ ['\n'] := by
  induction lines generalizing text with
  | nil => simp
  | cons first rest ih => simp [ih]

theorem toList_listing (actions : List Action) :
    (listing actions).toList =
      (Listing.lines actions).toList.flatMap fun line => line.toList ++ ['\n'] := by
  rw [listing, ← Array.foldl_toList, toList_foldl_lines]
  rfl

theorem length_le_count_lineEnds (lines : List String) :
    lines.length ≤ (lines.flatMap fun line => line.toList ++ ['\n']).count '\n' := by
  induction lines with
  | nil => exact Nat.le_refl _
  | cons first rest ih =>
      simp only [List.flatMap_cons, List.count_append, List.count_singleton_self, List.length_cons]
      omega

/-- Every line has a line end behind it, so only line ends in the lines can make more. -/
theorem count_lineEnds_eq_length_iff :
    (lines.flatMap fun line => line.toList ++ ['\n']).count '\n' = lines.length ↔
      ∀ line ∈ lines, OneLine line := by
  induction lines with
  | nil => simp
  | cons first rest ih =>
      have atLeast := length_le_count_lineEnds rest
      rw [List.forall_mem_cons, ← ih, OneLine, ← List.count_eq_zero]
      simp only [List.flatMap_cons, List.count_append, List.count_singleton_self, List.length_cons]
      omega

theorem ConsistsOf.count_eq (consists : ConsistsOf text lines) :
    text.toList.count '\n' = lines.length := by
  rw [consists.toList_eq, count_lineEnds_eq_length_iff]
  exact consists.oneLine

end Texts

namespace Listing

variable {actions : List Action}

theorem oneLine_lines :
    (∀ line ∈ (lines actions).toList, OneLine line) ↔ Action.Throughout NamesUnbroken actions := by
  rw [← oneLine_allEntries 0, toList_lines, List.forall_mem_map]
  simp only [Entry.text, oneLine_line]

theorem length_lines : (lines actions).toList.length = allLineCount actions := by
  rw [toList_lines, List.length_map, ← length_allLineDepths 0, ← map_depth_allEntries,
    List.length_map]

theorem indentedBy_lines :
    List.Forall₂ IndentedBy (allLineDepths 0 actions) (lines actions).toList := by
  rw [toList_lines, ← map_depth_allEntries, List.forall₂_map_left_iff, List.forall₂_map_right_iff,
    List.forall₂_same]
  exact fun entry member => indentedBy_line (startsVisibly_allEntries 0 actions entry member)

/-- Whatever other lines a listing consists of, it has another number of them. -/
theorem throughout_namesUnbroken_of_length {found : List String}
    (consists : ConsistsOf (listing actions) found)
    (count : found.length = allLineCount actions) : Action.Throughout NamesUnbroken actions := by
  have lineEnds := consists.count_eq
  rw [toList_listing, count, ← length_lines, count_lineEnds_eq_length_iff] at lineEnds
  exact oneLine_lines.mp lineEnds

end Listing

/-- A listing consists of as many lines as it is meant to have, and of lines that are indented by
their depths, exactly if no name that is shown as it is has a line end in it.  All other texts may
have any characters. -/
theorem listing_lines_iff (actions : List Action) :
    ((∃ lines, ConsistsOf (listing actions) lines ∧
        lines.length = Listing.allLineCount actions) ↔
      Action.Throughout Listing.NamesUnbroken actions) ∧
    ((∃ lines, ConsistsOf (listing actions) lines ∧
        List.Forall₂ IndentedBy (Listing.allLineDepths 0 actions) lines) ↔
      Action.Throughout Listing.NamesUnbroken actions) := by
  have consists (unbroken : Action.Throughout Listing.NamesUnbroken actions) :
      ConsistsOf (listing actions) (Listing.lines actions).toList :=
    ⟨toList_listing actions, Listing.oneLine_lines.mpr unbroken⟩
  refine ⟨⟨?_, fun unbroken => ⟨_, consists unbroken, Listing.length_lines⟩⟩,
    ⟨?_, fun unbroken => ⟨_, consists unbroken, Listing.indentedBy_lines⟩⟩⟩
  · rintro ⟨lines, consistsOf, count⟩
    exact Listing.throughout_namesUnbroken_of_length consistsOf count
  · rintro ⟨lines, consistsOf, indented⟩
    apply Listing.throughout_namesUnbroken_of_length consistsOf
    rw [← indented.length_eq, Listing.length_allLineDepths]

/-- A line end in the name of a function makes three lines of two. -/
theorem listing_lines_brokenName :
    ¬ ∃ lines, ConsistsOf (listing [.block (.defineFunction "f\ng" [] [])]) lines ∧
      lines.length = Listing.allLineCount [.block (.defineFunction "f\ng" [] [])] := by
  rintro ⟨lines, consists, count⟩
  have lineEnds := consists.count_eq
  rw [count] at lineEnds
  exact absurd lineEnds (by decide)

end ActionStream
