import ActionStream.Json.Decoder

/-!
# What decoders ensure

A decoder ensures a property with a number of levels when every value that it gives has it, from
whatever JSON value.  Lists, records and alternatives with content use up a level, so what they
ensure follows from what their parts ensure with one level less; with no level left they give
nothing.  A record can be spelled as an object, with the members in any order, or as a list; in both
of them every field of the record is given by its own decoder or is what it is when absent.
-/

namespace ActionStream.Json

theorem bind_eq_ok {ε α β : Type} {run : Except ε α} {next : α → Except ε β} {result : β} :
    run >>= next = .ok result ↔ ∃ middle, run = .ok middle ∧ next middle = .ok result := by
  cases run <;> simp [Bind.bind, Except.bind]

theorem map_eq_ok {ε α β : Type} {function : α → β} {run : Except ε α} {result : β} :
    function <$> run = .ok result ↔ ∃ value, run = .ok value ∧ function value = result := by
  cases run <;> simp [Functor.map, Except.map]

theorem exists_of_mem_mapM {ε α β : Type} {read : α → Except ε β} {items : List α}
    {values : List β} (success : items.mapM read = .ok values) :
    ∀ value ∈ values, ∃ item, read item = .ok value := by
  induction items generalizing values with
  | nil =>
      cases success
      exact List.forall_mem_nil _
  | cons item items ih =>
      rw [List.mapM_cons, bind_eq_ok] at success
      obtain ⟨first, readFirst, success⟩ := success
      obtain ⟨rest, readRest, success⟩ := bind_eq_ok.mp success
      cases success
      exact List.forall_mem_cons.mpr ⟨⟨item, readFirst⟩, ih readRest⟩

theorem Decoder.check_eq_ok_iff {α : Type} {run : Except CodecError α} {value : α} :
    Decoder.check run = .ok value ↔ run = .ok value := by
  cases run <;> simp [Decoder.check]

theorem Decoder.ofOption_eq_ok_iff {α : Type} {option : Option α} {value : α} :
    Decoder.ofOption option = .ok value ↔ option = some value := by
  cases option <;> simp [Decoder.ofOption]

/-- Whatever the decoder gives with the given number of levels has a property. -/
def Ensures {α : Type} (levels : Nat) (decoder : Decoder α) (holds : α → Prop) : Prop :=
  ∀ json value, decoder levels json = .ok value → holds value

section Decoders

variable {α β : Type} {levels : Nat} {decoder : Decoder α} {holds : α → Prop}
  {holdsNext : β → Prop}

theorem ensures_of_forall (each : ∀ value, holds value) : Ensures levels decoder holds :=
  fun _ value _ => each value

theorem Ensures.mapped {wrap : α → β} (ensures : Ensures levels decoder holds)
    (wraps : ∀ value, holds value → holdsNext (wrap value)) :
    Ensures levels (.mapped decoder wrap) holdsNext := by
  intro json value success
  obtain ⟨inner, given, rfl⟩ := map_eq_ok.mp success
  exact wraps inner (ensures json inner given)

/-- A decoder whose result is checked ensures what follows from the check. -/
theorem Ensures.checked {rule : α → Except CodecError β} (ensures : Ensures levels decoder holds)
    (ruled : ∀ raw value, holds raw → rule raw = .ok value → holdsNext value) :
    Ensures levels (.checked decoder rule) holdsNext := by
  intro json value success
  obtain ⟨raw, given, success⟩ := bind_eq_ok.mp success
  exact ruled raw value (ensures json raw given) (Decoder.check_eq_ok_iff.mp success)

theorem Ensures.optional (ensures : Ensures levels decoder holds) :
    Ensures levels (.optional decoder) fun option => ∀ value ∈ option, holds value := by
  intro json option success value present
  unfold Decoder.optional at success
  split at success
  · cases success
    cases present
  · obtain ⟨inner, given, rfl⟩ := map_eq_ok.mp success
    cases present
    exact ensures json value given

theorem Ensures.listOf (ensures : Ensures (levels - 1) decoder holds) :
    Ensures levels (.listOf decoder) fun values => 1 ≤ levels ∧ ∀ value ∈ values, holds value := by
  intro json values success
  unfold Decoder.listOf at success
  split at success
  next inside items closed =>
    refine ⟨Nat.le_add_left 1 inside, fun value member => ?_⟩
    obtain ⟨found, reads, success⟩ := bind_eq_ok.mp success
    have same : found = values := by
      cases closed <;> cases success
      rfl
    subst same
    obtain ⟨item, given⟩ := exists_of_mem_mapM reads value member
    exact ensures item value given
  next => cases success

/-- Of several alternatives, those without content are named and those with content have a level
less. -/
theorem ensures_choice {alone : String → Option α} {carrying : String → Option (Decoder α)}
    (named : ∀ name value, alone name = some value → holds value)
    (carried : ∀ name decoder, carrying name = some decoder → Ensures (levels - 1) decoder holds) :
    Ensures levels (.choice alone carrying) holds := by
  intro json value success
  unfold Decoder.choice at success
  split at success
  next name => exact named name value (Decoder.ofOption_eq_ok_iff.mp success)
  next inside name content others closed =>
    have alone_or_malformed (found : α)
        (finishes : (if (others.isEmpty && closed) = true then pure found
          else throw .malformed : Except Refusal α) = .ok value) : found = value := by
      split at finishes <;> cases finishes
      rfl
    dsimp only at success
    split at success
    next _ _ decoder carries =>
      obtain ⟨found, given, finishes⟩ := bind_eq_ok.mp success
      obtain rfl := alone_or_malformed found finishes
      exact carried name decoder carries content found given
    next only _ isNamed =>
      obtain ⟨found, given, finishes⟩ := bind_eq_ok.mp success
      obtain ⟨-, -, rfl⟩ := map_eq_ok.mp given
      obtain rfl := alone_or_malformed only finishes
      exact named name only isNamed
    next => cases success
  next => cases success

end Decoders

/-- A value of a field that its decoder gives, or that the field has when it is absent. -/
def FieldForm.Holds {α : Type} (levels : Nat) (form : FieldForm α) (value : α) : Prop :=
  (∃ json, form.decoder levels json = .ok value) ∨ form.absent = some value

namespace RecordForm

/-- Every field that has been read is given by its decoder. -/
def Drafted (levels : Nat) {Draft Record : Type} : RecordForm Draft Record → Draft → Prop
  | done, _ => True
  | field form rest, (read, draft) =>
    (∀ value ∈ read, ∃ json, form.decoder levels json = .ok value) ∧ rest.Drafted levels draft

/-- Every field is given by its decoder or is what it is when absent. -/
def Filled (levels : Nat) {Draft Record : Type} : RecordForm Draft Record → Record → Prop
  | done, _ => True
  | field form rest, (value, others) => form.Holds levels value ∧ rest.Filled levels others

variable {Draft Record : Type} {record : RecordForm Draft Record} {levels : Nat}

theorem drafted_initial (record : RecordForm Draft Record) :
    record.Drafted levels record.initial := by
  induction record with
  | done => trivial
  | field form rest ih => exact ⟨by simp, ih⟩

/-- A member adds the field with its name. -/
theorem Drafted.readMember {name : String} {content : Value} {draft next : Draft}
    (drafted : record.Drafted levels draft)
    (reads : record.readMember levels name content draft = some (.ok next)) :
    record.Drafted levels next := by
  induction record with
  | done => cases reads
  | field form rest ih =>
      obtain ⟨read, draft⟩ := draft
      simp only [RecordForm.readMember] at reads
      split at reads
      · cases read with
        | some value => cases reads
        | none =>
            obtain ⟨value, given, rfl⟩ := map_eq_ok.mp (Option.some.inj reads)
            refine ⟨fun other present => ?_, drafted.2⟩
            cases present
            exact ⟨content, given⟩
      · obtain ⟨outcome, readsRest, isOk⟩ := Option.map_eq_some_iff.mp reads
        obtain ⟨others, rfl, rfl⟩ := map_eq_ok.mp isOk
        exact ⟨drafted.1, ih drafted.2 readsRest⟩

theorem Drafted.readMembers {strict : Bool} {members : List (Option String × Value)}
    {draft next : Draft} (drafted : record.Drafted levels draft)
    (reads : record.readMembers strict levels draft members = .ok next) :
    record.Drafted levels next := by
  induction members generalizing draft with
  | nil =>
      cases reads
      exact drafted
  | cons member members ih =>
      obtain ⟨name, content⟩ := member
      cases name with
      | none => cases reads
      | some name =>
          rw [RecordForm.readMembers] at reads
          split at reads
          next added readFirst => exact ih (drafted.readMember readFirst) reads
          next => cases reads
          next =>
            split at reads
            · cases reads
            · exact ih drafted reads

theorem drafted_readItems {items : List Value} {draft : Draft}
    (reads : record.readItems levels items = .ok draft) : record.Drafted levels draft := by
  induction record generalizing items with
  | done => trivial
  | field form rest ih =>
      cases items with
      | nil =>
          cases reads
          exact drafted_initial _
      | cons item items =>
          rw [readItems, bind_eq_ok] at reads
          obtain ⟨value, given, reads⟩ := reads
          obtain ⟨others, readOthers, reads⟩ := bind_eq_ok.mp reads
          cases reads
          refine ⟨fun other present => ?_, ih readOthers⟩
          cases present
          exact ⟨item, given⟩

theorem drafted_draft {strict : Bool} {json : Value} {draft : Draft}
    (reads : record.draft strict levels json = .ok draft) : record.Drafted levels draft := by
  unfold RecordForm.draft at reads
  split at reads
  next members closed =>
    obtain ⟨found, readMembers, reads⟩ := bind_eq_ok.mp reads
    cases closed <;> cases reads
    exact (drafted_initial record).readMembers readMembers
  next items closed =>
    obtain ⟨found, readItems, reads⟩ := bind_eq_ok.mp reads
    cases closed <;> cases reads
    exact drafted_readItems readItems
  next => cases reads

theorem Drafted.filled {draft : Draft} {fields : Record} (drafted : record.Drafted levels draft)
    (finishes : record.finish draft = .ok fields) : record.Filled levels fields := by
  induction record with
  | done => trivial
  | field form rest ih =>
      obtain ⟨read, draft⟩ := draft
      rw [finish, bind_eq_ok] at finishes
      obtain ⟨value, present, finishes⟩ := finishes
      obtain ⟨others, finishOthers, finishes⟩ := bind_eq_ok.mp finishes
      cases finishes
      refine ⟨?_, ih drafted.2 finishOthers⟩
      have present := Decoder.ofOption_eq_ok_iff.mp present
      cases read with
      | none => exact .inr present
      | some found =>
          cases present
          exact .inl (drafted.1 value rfl)

/-- A record takes a level; its fields have the others. -/
theorem ensures_decoderOf {α : Type} {strict : Bool} {make : Record → Except CodecError α}
    {holds : α → Prop}
    (made : ∀ fields value, record.Filled (levels - 1) fields → make fields = .ok value →
      holds value) :
    Ensures levels (record.decoderOf strict make) holds := by
  intro json value success
  cases levels with
  | zero => cases success
  | succ inside =>
      rw [decoderOf, bind_eq_ok] at success
      obtain ⟨draft, drafts, success⟩ := success
      obtain ⟨fields, finishes, success⟩ := bind_eq_ok.mp success
      exact made fields value ((drafted_draft drafts).filled finishes)
        (Decoder.check_eq_ok_iff.mp success)

theorem ensures_decoder {α : Type} {make : Record → α} {holds : α → Prop}
    (made : ∀ fields, record.Filled (levels - 1) fields → holds (make fields)) :
    Ensures levels (record.decoder make) holds := by
  apply ensures_decoderOf
  intro fields value filled success
  cases success
  exact made fields filled

end RecordForm

end ActionStream.Json
