import ActionStream.Proofs.Operand.Shown

/-!
# Texts on one line

The text of an action without regions has no line end in it, whatever its operands are: texts are
quoted, and all other operands are words.  The text of an action with regions shows the names of
functions and parameters as they are, so it has the line ends of these names and no others.  Every
text of an action begins with a character other than a space.
-/

namespace ActionStream

section Texts

variable {first second separator : String} {items : List String}

/-- A text without a line end. -/
def OneLine (text : String) : Prop :=
  '\n' ∉ text.toList

instance (text : String) : Decidable (OneLine text) :=
  inferInstanceAs (Decidable ('\n' ∉ text.toList))

theorem oneLine_ofList {characters : List Char} (none : '\n' ∉ characters) :
    OneLine (String.ofList characters) := by
  rwa [OneLine, String.toList_ofList]

theorem oneLine_append : OneLine (first ++ second) ↔ OneLine first ∧ OneLine second := by
  rw [OneLine, String.toList_append, List.mem_append, not_or]
  rfl

theorem OneLine.append (firstHolds : OneLine first) (secondHolds : OneLine second) :
    OneLine (first ++ second) :=
  oneLine_append.mpr ⟨firstHolds, secondHolds⟩

theorem IsWord.oneLine {word : String} (isWord : IsWord word) : OneLine word :=
  fun member => absurd (isWord _ member) (by decide)

theorem oneLine_intercalate (separated : OneLine separator) :
    OneLine (separator.intercalate items) ↔ ∀ item ∈ items, OneLine item := by
  induction items with
  | nil => simp [OneLine]
  | cons first rest ih =>
      cases rest with
      | nil => simp
      | cons second rest =>
          rw [String.intercalate_cons_cons, oneLine_append, oneLine_append, ih,
            List.forall_mem_cons (l := second :: rest)]
          simp [separated]

theorem oneLine_commaSeparated : OneLine (commaSeparated items) ↔ ∀ item ∈ items, OneLine item :=
  oneLine_intercalate (by decide)

/-- A text that begins with a character other than a space. -/
def StartsVisibly (text : String) : Prop :=
  text.toList.head?.any (· ≠ ' ') = true

instance (text : String) : Decidable (StartsVisibly text) :=
  inferInstanceAs (Decidable (text.toList.head?.any (· ≠ ' ') = true))

theorem startsVisibly_ofList {characters : List Char}
    (starts : characters.head?.any (· ≠ ' ') = true) :
    StartsVisibly (String.ofList characters) := by
  rwa [StartsVisibly, String.toList_ofList]

theorem StartsVisibly.append (starts : StartsVisibly first) (second : String) :
    StartsVisibly (first ++ second) := by
  rw [StartsVisibly, String.toList_append]
  rw [StartsVisibly] at starts
  cases characters : first.toList with
  | nil =>
      rw [characters] at starts
      cases starts
  | cons character rest => rwa [characters] at starts

end Texts

theorem BasicOp.oneLine_name (op : BasicOp) : OneLine op.name := by
  cases op <;> exact oneLine_ofList (by decide)

theorem BasicOp.startsVisibly_name (op : BasicOp) : StartsVisibly op.name := by
  cases op <;> exact startsVisibly_ofList rfl

theorem PushValue.oneLine_shown (value : PushValue) : OneLine value.shown := by
  rcases value.text_or_isWord with ⟨content, rfl⟩ | isWord
  · exact Text.lineFeed_not_mem_quoted content
  · exact isWord.oneLine

namespace Plain

theorem oneLine_text (fields : Plain) : OneLine fields.text := by
  cases fields with
  | gotoFrame frame =>
      unfold text
      exact .append (by decide) (isWord_natural _).oneLine
  | getUrl url target =>
      unfold text
      exact .append (.append (.append (by decide) (Text.lineFeed_not_mem_quoted _)) (by decide))
        (Text.lineFeed_not_mem_quoted _)
  | storeRegister register =>
      unfold text
      exact .append (by decide) register.isWord_text.oneLine
  | constantPool strings =>
      cases strings with
      | nil =>
          unfold text
          decide
      | cons first rest =>
          unfold text
          refine .append (by decide) (oneLine_commaSeparated.mpr fun item member => ?_)
          obtain ⟨content, -, rfl⟩ := List.mem_map.mp member
          exact Text.lineFeed_not_mem_quoted content
  | waitForFrame frame skipCount =>
      unfold text
      exact .append (.append (.append (by decide) (isWord_natural _).oneLine) (by decide))
        (isWord_natural _).oneLine
  | setTarget target =>
      unfold text
      exact .append (by decide) (Text.lineFeed_not_mem_quoted _)
  | gotoLabel label =>
      unfold text
      exact .append (by decide) (Text.lineFeed_not_mem_quoted _)
  | waitForFrame2 skipCount =>
      unfold text
      exact .append (by decide) (isWord_natural _).oneLine
  | push values =>
      unfold text
      refine .append (by decide) (oneLine_commaSeparated.mpr fun item member => ?_)
      obtain ⟨value, -, rfl⟩ := List.mem_map.mp member
      exact value.oneLine_shown
  | jump offset =>
      unfold text
      exact .append (by decide) (isWord_integer _).oneLine
  | getUrl2 method loadTarget loadVariables =>
      unfold text
      cases method <;> cases loadTarget <;> cases loadVariables <;> decide
  | branchIf offset =>
      unfold text
      exact .append (by decide) (isWord_integer _).oneLine
  | gotoFrame2 play sceneBias =>
      unfold text
      refine .append (.append (by decide) (by cases play <;> decide)) ?_
      split_ifs
      · decide
      · exact .append (by decide) (isWord_natural _).oneLine

theorem startsVisibly_text (fields : Plain) : StartsVisibly fields.text := by
  cases fields with
  | constantPool strings =>
      cases strings <;> unfold text
      · decide
      · exact .append (by decide) _
  | gotoFrame | storeRegister | setTarget | gotoLabel | waitForFrame2 | push | jump | branchIf =>
      unfold text
      exact .append (by decide) _
  | gotoFrame2 =>
      unfold text
      exact .append (.append (by decide) _) _
  | getUrl | waitForFrame | getUrl2 =>
      unfold text
      exact .append (.append (.append (by decide) _) _) _

end Plain

section Headers

theorem RegisterParam.oneLine_text {param : RegisterParam} :
    OneLine param.text ↔ OneLine param.name := by
  rw [text]
  split
  next => rfl
  next register bound =>
    refine ⟨fun holds => ?_, fun holds => ?_⟩
    · exact (oneLine_append.mp (oneLine_append.mp holds).1).1
    · exact .append (.append holds (by decide)) register.isWord_text.oneLine

namespace Block

variable {name : String} {params : List String} {registerCount : UInt8} {flags : FunctionFlags}
  {registerParams : List RegisterParam}

theorem text_defineFunction :
    (defineFunction name params ()).text =
      "DefineFunction " ++ name ++ "(" ++ commaSeparated params ++ ")" := by
  unfold text
  rfl

theorem text_defineFunction2 :
    (defineFunction2 name registerCount flags registerParams ()).text =
      "DefineFunction2 " ++ name ++ "(" ++ commaSeparated (registerParams.map RegisterParam.text) ++
        ")" ++ (" regs=" ++ toString registerCount.toNat ++ " flags=0x" ++
          Text.hexPadded .upper 3 flags.bits.toNat) := by
  unfold text
  rfl

theorem oneLine_defineFunction :
    OneLine (defineFunction name params ()).text ↔ ∀ shown ∈ name :: params, OneLine shown := by
  have literals : OneLine "DefineFunction " ∧ OneLine "(" ∧ OneLine ")" := by decide
  simp only [text_defineFunction, oneLine_append, oneLine_commaSeparated, List.forall_mem_cons,
    literals, true_and, and_true]

theorem oneLine_defineFunction2 :
    OneLine (defineFunction2 name registerCount flags registerParams ()).text ↔
      ∀ shown ∈ name :: registerParams.map RegisterParam.name, OneLine shown := by
  have literals : OneLine "DefineFunction2 " ∧ OneLine "(" ∧ OneLine ")" ∧ OneLine " regs=" ∧
      OneLine " flags=0x" := by
    decide
  have numbers : OneLine (toString registerCount.toNat) ∧
      OneLine (Text.hexPadded .upper 3 flags.bits.toNat) :=
    ⟨(isWord_natural _).oneLine, (isWord_hexPadded _ _ _).oneLine⟩
  simp only [text_defineFunction2, oneLine_append, oneLine_commaSeparated, List.forall_mem_cons,
    List.forall_mem_map, RegisterParam.oneLine_text, literals, numbers, true_and, and_true]

theorem startsVisibly_defineFunction : StartsVisibly (defineFunction name params ()).text := by
  rw [text_defineFunction]
  exact .append (.append (.append (.append (by decide) _) _) _) _

theorem startsVisibly_defineFunction2 :
    StartsVisibly (defineFunction2 name registerCount flags registerParams ()).text := by
  rw [text_defineFunction2]
  exact .append (.append (.append (.append (.append (by decide) _) _) _) _) _

end Block

namespace Listing

/-- The name that the region for exceptions binds is shown as it is. -/
def catchNames : CatchTarget → List String
  | .name text => [text]
  | .register _ => []

theorem oneLine_catchTitle {target : CatchTarget} :
    OneLine (catchTitle target) ↔ ∀ shown ∈ catchNames target, OneLine shown := by
  have literals : OneLine "catch (" ∧ OneLine ")" := by decide
  cases target with
  | name text =>
      have title : catchTitle (.name text) = "catch (" ++ text ++ ")" := rfl
      simp [title, catchNames, oneLine_append, literals]
  | register index =>
      have title : catchTitle (.register index) = "catch (" ++ index.text ++ ")" := rfl
      simp [title, catchNames, oneLine_append, literals, index.isWord_text.oneLine]

theorem startsVisibly_catchTitle {target : CatchTarget} : StartsVisibly (catchTitle target) := by
  cases target <;> exact .append (.append (by decide) _) _

end Listing

namespace Action

theorem oneLine_unknown {opcode : UInt8} {body : List UInt8} :
    OneLine (unknown opcode body).text := by
  have opening := (isWord_hexPadded .upper 2 opcode.toNat).oneLine
  cases body with
  | nil => exact .append (.append (by decide) opening) (by decide)
  | cons first rest =>
      have bytes : OneLine (byteDump (first :: rest)) := by
        refine (oneLine_intercalate (by decide)).mpr fun item member => ?_
        obtain ⟨byte, -, rfl⟩ := List.mem_map.mp member
        exact (isWord_hexPadded _ _ _).oneLine
      exact .append (.append (.append (.append (by decide) opening) (by decide)) bytes) (by decide)

theorem startsVisibly_unknown {opcode : UInt8} {body : List UInt8} :
    StartsVisibly (unknown opcode body).text := by
  cases body with
  | nil => exact .append (.append (by decide) _) _
  | cons first rest => exact .append (.append (.append (.append (by decide) _) _) _) _

end Action

end Headers

end ActionStream
