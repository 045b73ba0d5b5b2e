import ActionStream.Proofs.Action.Depth
import ActionStream.Proofs.Interchange.RoundTrip
import ActionStream.Proofs.Json.Ensuring

/-!
# What a JSON text can bring in

Reading goes through the constructors: whatever is accepted, at every depth, obeys the rules that
hold for actions that are built.  A region inside an action takes three levels of the text, one for
the object that names the action, one for the record of its fields and one for the list itself, so
the levels of a text bound the nesting of the regions as well.
-/

namespace ActionStream

open Json

section Fields

variable {levels : Nat}

/-- A wrapped value without a rule of its own. -/
theorem Json.ensures_mapped {α β : Type} {decoder : Decoder α} {wrap : α → β} {holds : β → Prop}
    (wraps : ∀ value, holds (wrap value)) : Ensures levels (.mapped decoder wrap) holds := by
  have any : Ensures levels decoder fun _ => True := ensures_of_forall fun _ => trivial
  exact any.mapped fun value _ => wraps value

theorem Property.regular_of_ofInt {code : Int} {property : Property}
    (built : ofInt code = .ok property) : property.Regular := by
  unfold ofInt at built
  split at built
  next inside =>
    cases built
    have same : (Int32.ofInt code).toInt = code := by
      rw [greatestCode] at inside
      exact Int32.toInt_ofInt_of_le (by omega) (by omega)
    rwa [Regular, toInt, same]
  next => cases built

theorem Property.ensures_decoder : Ensures levels Property.decoder Property.Regular := by
  have any : Ensures levels (.integer (-9223372036854775808) 9223372036854775807)
      fun _ => True := ensures_of_forall fun _ => trivial
  exact any.checked fun _ _ _ built => regular_of_ofInt built

theorem PushValue.ensures_decoder : Ensures levels PushValue.decoder PushValue.Regular := by
  apply ensures_choice
  · intro name value named
    unfold ofName? at named
    split_ifs at named <;> cases named <;> trivial
  · intro name decoder carried
    -- Of the operands with content only a property has a rule.
    by_cases isProperty : name = "Property"
    · subst isProperty
      cases carried
      exact Property.ensures_decoder.mapped fun _ regular => regular
    · unfold contentDecoder at carried
      split_ifs at carried <;> cases carried
      all_goals exact ensures_mapped fun _ => trivial

theorem Plain.ensures_contentDecoder (kind : PlainKind) :
    Ensures levels (Plain.contentDecoder kind) fun fields =>
      (Action.plain fields).Obtainable ∧ fields.Regular := by
  cases kind with
  | constantPool =>
      have any : Ensures levels (.listOf Decoder.text) fun _ => True :=
        ensures_of_forall fun _ => trivial
      refine any.checked fun strings fields _ built =>
        ⟨Action.obtainable_of_plainChecked built, ?_⟩
      simp only [checked] at built
      split_ifs at built
      cases built
      trivial
  | push =>
      apply RecordForm.ensures_decoder
      rintro ⟨values, _⟩ ⟨given, -⟩
      refine ⟨List.forall_mem_nil _, ?_⟩
      rcases given with ⟨json, given⟩ | absent
      · exact (PushValue.ensures_decoder.listOf json values given).2
      · cases absent
  | _ => exact RecordForm.ensures_decoder fun _ _ => ⟨List.forall_mem_nil _, trivial⟩

/-- The regions of an action are read with one level less than its fields, or they are empty. -/
theorem Block.ensures_draftDecoder (region : Decoder (List Action)) (kind : BlockKind) :
    Ensures levels (Block.draftDecoder region kind) fun fields => ∀ body ∈ fields.regions,
      body = [] ∨ ∃ json, region (levels - 1) json = .ok body := by
  have present {name : String} {absent : Option (List Action)} {body : List Action}
      (holds : FieldForm.Holds (levels - 1) ⟨name, region, absent⟩ body)
      (empty : absent = none ∨ absent = some []) :
      body = [] ∨ ∃ json, region (levels - 1) json = .ok body := by
    rcases holds with given | same
    · exact .inr given
    · rcases empty with rfl | rfl <;> cases same
      exact .inl rfl
  cases kind with
  | defineFunction =>
      apply RecordForm.ensures_decoder
      rintro ⟨name, params, body, _⟩ ⟨-, -, bodyHolds, -⟩
      exact List.forall_mem_singleton.mpr (present bodyHolds (.inl rfl))
  | defineFunction2 =>
      apply RecordForm.ensures_decoder
      rintro ⟨name, registerCount, flags, params, body, _⟩ ⟨-, -, -, -, bodyHolds, -⟩
      exact List.forall_mem_singleton.mpr (present bodyHolds (.inl rfl))
  | tryCatch =>
      apply RecordForm.ensures_decoder
      rintro ⟨tryBody, target, catchBody, finallyBody, _⟩ ⟨tryHolds, -, catchHolds, finallyHolds, -⟩
      simp only [regions, List.forall_mem_cons]
      exact ⟨present tryHolds (.inl rfl), present catchHolds (.inr rfl),
        present finallyHolds (.inr rfl), List.forall_mem_nil _⟩
  | withObject =>
      apply RecordForm.ensures_decoder
      rintro ⟨body, _⟩ ⟨bodyHolds, -⟩
      exact List.forall_mem_singleton.mpr (present bodyHolds (.inl rfl))

end Fields

section Indices

def PushValue.registers : PushValue → List RegisterIndex
  | register index => [index]
  | _ => []

def PushValue.tableIndices : PushValue → List TableIndex
  | constant index => [index]
  | _ => []

def CatchTarget.registers : CatchTarget → List RegisterIndex
  | name _ => []
  | register index => [index]

def Plain.registers : Plain → List RegisterIndex
  | storeRegister register => [register]
  | push values => values.flatMap PushValue.registers
  | _ => []

def Plain.tableIndices : Plain → List TableIndex
  | push values => values.flatMap PushValue.tableIndices
  | _ => []

def Block.registers {Region : Type} : Block Region → List RegisterIndex
  | defineFunction2 _ _ _ params _ => params.filterMap fun param => param.register
  | tryCatch _ target _ _ => target.registers
  | defineFunction _ _ _ | withObject _ => []

end Indices

namespace Action

/-- The registers that an action names, its regions apart. -/
def registers : Action → List RegisterIndex
  | plain fields => fields.registers
  | block fields => fields.registers
  | basic _ | call | unknown _ _ => []

/-- The positions in the constant pool that an action names, its regions apart. -/
def tableIndices : Action → List TableIndex
  | plain fields => fields.tableIndices
  | basic _ | block _ | call | unknown _ _ => []

/-- The rules that the constructors enforce, the actions in the regions apart. -/
structure Ruled (action : Action) : Prop where
  registers_le : ∀ register ∈ action.registers, register.toNat ≤ 255
  tableIndices_le : ∀ index ∈ action.tableIndices, index.toNat ≤ 65535
  /-- Counts fit their fields, and an opaque action may have its opcode and its length. -/
  obtainable : action.Obtainable
  /-- Property codes are in range, flags are defined and parameters are bound as they may be. -/
  regular : action.Regular

theorem ruled_of_obtainable {action : Action} (obtainable : action.Obtainable)
    (regular : action.Regular) : action.Ruled where
  registers_le register _ := Nat.le_of_lt_succ register.value.toNat_lt
  tableIndices_le index _ := Nat.le_of_lt_succ index.value.toNat_lt
  obtainable := obtainable
  regular := regular

theorem Ruled.producible {action : Action} (ruled : action.Ruled) : action.Producible := by
  cases action with
  | block fields =>
      exact ((Block.lawful_iff_regular ruled.obtainable).mpr ruled.regular).registered
  | unknown opcode body =>
      obtain ⟨unnamed, short⟩ := ruled.obtainable
      exact producible_of_unknownChecked (unknownChecked_eq_ok_iff.mpr ⟨unnamed, short, rfl⟩)
  | _ => trivial

section Trees

variable {action : Action}

/-- What holds of an action and throughout its regions holds throughout the action. -/
theorem throughout_of_regions {holds : Action → Prop} (top : holds action)
    (inside : ∀ region ∈ action.regions, Throughout holds region) : Throughout holds [action] := by
  cases action with
  | block fields => exact throughout_block.mpr ⟨top, inside⟩
  | _ => exact (throughout_single (by simp)).mpr top

theorem nesting_le_of_regions {most : Nat}
    (inside : ∀ region ∈ action.regions, openNesting region ≤ most) : action.nesting ≤ most := by
  cases action with
  | block fields => exact nesting_block_le_iff.mpr inside
  | _ => exact Nat.zero_le most

theorem openNesting_le_listNesting_succ (region : List Action) :
    openNesting region ≤ listNesting region + 1 :=
  openNesting_le_succ_iff.mpr (listNesting_le_iff.mp (Nat.le_refl _))

end Trees

section Decoders

variable {levels : Nat} {region : Decoder (List Action)}

/-- What one action ensures, given a decoder for its regions with some number of levels. -/
def RuledOver (region : Decoder (List Action)) (levels : Nat) (action : Action) : Prop :=
  action.Ruled ∧ ∀ body ∈ action.regions, body = [] ∨ ∃ json, region levels json = .ok body

theorem ensures_plainDecoder (kind : PlainKind) :
    Ensures levels (.mapped (Plain.contentDecoder kind) plain) (RuledOver region (levels - 1)) :=
  (Plain.ensures_contentDecoder kind).mapped fun _ both =>
    ⟨ruled_of_obtainable both.1 both.2, List.forall_mem_nil _⟩

theorem ensures_blockDecoder (kind : BlockKind) :
    Ensures levels (.mapped (Block.contentDecoder region kind) block)
      (RuledOver region (levels - 1)) := by
  have checked : Ensures levels (Block.contentDecoder region kind) fun fields =>
      RuledOver region (levels - 1) (block fields) := by
    refine (Block.ensures_draftDecoder region kind).checked fun draft fields bodies built => ?_
    have obtainable := obtainable_of_blockChecked built
    obtain ⟨lawful, rfl⟩ := Block.checked_eq_ok_iff.mp built
    have regular := (Block.lawful_iff_regular obtainable).mp lawful
    exact ⟨ruled_of_obtainable obtainable regular, bodies⟩
  exact checked.mapped fun _ ruled => ruled

theorem ensures_unknownDecoder :
    Ensures levels unknownDecoder (RuledOver region (levels - 1)) := by
  apply RecordForm.ensures_decoderOf
  rintro ⟨opcode, body, _⟩ action - built
  have obtainable := obtainable_of_unknownChecked built
  obtain ⟨-, -, rfl⟩ := unknownChecked_eq_ok_iff.mp built
  exact ⟨ruled_of_obtainable obtainable trivial, List.forall_mem_nil _⟩

theorem ensures_contentDecoder {name : String} {decoder : Decoder Action}
    (named : contentDecoder region name = some decoder) :
    Ensures levels decoder (RuledOver region (levels - 1)) := by
  unfold contentDecoder at named
  split_ifs at named
  · cases named
    exact ensures_mapped fun _ =>
      ⟨ruled_of_obtainable trivial trivial, List.forall_mem_nil _⟩
  · cases named
    exact ensures_unknownDecoder
  · split at named
    next kind _ =>
      cases named
      exact ensures_plainDecoder kind
    next kind _ _ =>
      cases named
      exact ensures_blockDecoder kind
    next => cases named

/-- The object that names an action takes a level, and so does the record of its fields. -/
theorem ensures_decoderWith (levels : Nat) (region : Decoder (List Action)) :
    Ensures levels (decoderWith region) (RuledOver region (levels - 1 - 1)) := by
  apply ensures_choice
  · intro name action named
    split_ifs at named
    cases named
    exact ⟨ruled_of_obtainable trivial trivial, List.forall_mem_nil _⟩
  · intro name decoder named
    exact ensures_contentDecoder named

/-- Every list inside another one has three levels less. -/
theorem ensures_nestedDecoder (lists levels : Nat) :
    Ensures levels (nestedDecoder lists) fun actions =>
      Throughout Ruled actions ∧ 1 ≤ levels ∧ listNesting actions ≤ (levels - 1) / 3 := by
  induction lists generalizing levels with
  | zero =>
      intro json actions success
      cases success
  | succ lists ih =>
      intro json actions success
      obtain ⟨some, each⟩ :=
        (ensures_decoderWith (levels - 1) (nestedDecoder lists)).listOf json actions success
      have bodies : ∀ action ∈ actions, ∀ body ∈ action.regions,
          Throughout Ruled body ∧ openNesting body ≤ (levels - 1) / 3 := by
        intro action member body ofAction
        rcases (each action member).2 body ofAction with rfl | ⟨content, given⟩
        · exact ⟨throughout_nil, Nat.zero_le _⟩
        · obtain ⟨ruled, open_, nests⟩ := ih (levels - 1 - 1 - 1) content body given
          have opened := openNesting_le_listNesting_succ body
          exact ⟨ruled, by omega⟩
      refine ⟨?_, some, ?_⟩
      · rw [throughout_iff_forall_mem]
        intro action member
        exact throughout_of_regions (each action member).1 fun body ofAction =>
          (bodies action member body ofAction).1
      · rw [listNesting_le_iff]
        intro action member
        exact nesting_le_of_regions fun body ofAction => (bodies action member body ofAction).2

end Decoders

/-- Whatever a text gives obeys the rules of the constructors at every depth and nests at most 42
deep.  What it is encoded as, in whatever context, is never refused there for nesting too deep. -/
theorem ruled_of_ofJsonText {text : String} {actions : List Action}
    (accepted : ofJsonText text = .ok actions) :
    Throughout Ruled actions ∧ listNesting actions ≤ 42 ∧
      ∀ context bytes, encodeAll context actions = .ok bytes →
        ∀ limit, decodeAll context bytes ≠ .error (.nestingTooDeep limit) := by
  obtain ⟨found, given, finishes⟩ := bind_eq_ok.mp accepted
  have same : found = actions := by
    split_ifs at finishes
    cases finishes
    rfl
  subst same
  obtain ⟨ruled, -, nests⟩ := ensures_nestedDecoder deepestOpen deepestOpen _ found given
  have shallow : listNesting found ≤ 42 := nests
  refine ⟨ruled, shallow, fun context bytes encoded limit => ?_⟩
  have producible : Throughout Producible found :=
    fun action within => (ruled action within).producible
  exact decodeAll_ne_nestingTooDeep producible (Nat.le_trans shallow (by decide)) encoded limit

/-- A region with the last property and an opaque action, their fields given as lists. -/
def listedFieldsText : String :=
  "[\x7b\"With\":[[\x7b\"Push\":[[\x7b\"Property\":16777216\x7d]]\x7d]]\x7d,\x7b\"Unknown\":[1]\x7d]"

def listedFieldsJson : Value :=
  .listOf [.tagged "With" (.listOf [.listOf [.tagged "Push" (.listOf [.listOf
    [.tagged "Property" (.number "16777216")]])]]), .tagged "Unknown" (.listOf [.number "1"])]

def listedFields : List Action :=
  [.block (.withObject [.plain (.push [.property ⟨16777216⟩])]), .unknown 1 []]

theorem ruled_of_ofJsonText_listedFields :
    ofJsonText listedFieldsText = .ok listedFields ∧ Throughout Ruled listedFields ∧
      listNesting listedFields ≤ 42 ∧
      ∃ bytes, encodeAll {} listedFields = .ok bytes ∧
        ∀ limit, decodeAll {} bytes ≠ .error (.nestingTooDeep limit) := by
  have document : Document.ofText listedFieldsText = ⟨listedFieldsJson, false⟩ := by rfl
  have decoded : listDecoder deepestOpen listedFieldsJson = .ok listedFields := by rfl
  have accepted : ofJsonText listedFieldsText = .ok listedFields := by
    rw [ofJsonText, decodeText, document, decoded]
    rfl
  have encoded : encodeAll {} listedFields =
      .ok [0x94, 2, 0, 8, 0, 0x96, 5, 0, 1, 0, 0, 0, 1, 0x01] := by rfl
  obtain ⟨ruled, nests, readable⟩ := ruled_of_ofJsonText accepted
  exact ⟨accepted, ruled, nests, _, encoded, readable {} _ encoded⟩

end Action

end ActionStream
