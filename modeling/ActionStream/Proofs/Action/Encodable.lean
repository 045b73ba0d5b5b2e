import ActionStream.Proofs.Action.Layout
import ActionStream.Proofs.Action.RoundTrip
import ActionStream.Proofs.Text.Coverage

/-!
# When encoding succeeds

A tree can be encoded exactly if at every depth the context can hold the texts of the action, and
its header and each of its regions can be counted in 16 bits.  No other failure than a text or a
size is possible: a text whose own size cannot be counted is in a header that is too large, and so
are more table entries or parameters than their count can say.
-/

namespace ActionStream

section Fields

variable {context : Context} {text : String} {count : Nat}

def PushValue.texts : PushValue → List String
  | .text value => [value]
  | _ => []

def CatchTarget.texts : CatchTarget → List String
  | name text => [text]
  | register _ => []

namespace Plain

def texts : Plain → List String
  | getUrl url target => [url, target]
  | constantPool strings => strings
  | setTarget target => [target]
  | gotoLabel label => [label]
  | push values => values.flatMap PushValue.texts
  | _ => []

/-- The numbers of entries that a header says in 16 bits. -/
def counts : Plain → List Nat
  | constantPool strings => [strings.length]
  | _ => []

theorem textSize_le_headerSize {fields : Plain} (member : text ∈ fields.texts) :
    context.textSize text ≤ fields.headerSize context := by
  cases fields with
  | getUrl url target =>
      simp only [texts, List.mem_cons, List.not_mem_nil, or_false] at member
      rw [headerSize]
      rcases member with rfl | rfl
      · exact Nat.le_add_right ..
      · exact Nat.le_add_left ..
  | constantPool strings => exact Nat.le_add_left_of_le (le_sumOver_of_mem member)
  | setTarget target =>
      obtain rfl := List.mem_singleton.mp member
      exact Nat.le_refl _
  | gotoLabel label =>
      obtain rfl := List.mem_singleton.mp member
      exact Nat.le_refl _
  | push values =>
      obtain ⟨value, pushed, member⟩ := List.mem_flatMap.mp member
      have inside : context.textSize text ≤ value.size context := by
        cases value with
        | text value =>
            rw [List.mem_singleton.mp member]
            exact Nat.le_add_left ..
        | _ => cases member
      exact Nat.le_trans inside (le_sumOver_of_mem pushed)
  | _ => cases member

theorem count_le_headerSize {fields : Plain} (member : count ∈ fields.counts) :
    count ≤ fields.headerSize context := by
  cases fields with
  | constantPool strings =>
      rw [List.mem_singleton.mp member]
      exact Nat.le_add_left_of_le (length_le_sumOver fun text _ => context.textSize_pos text)
  | _ => cases member

theorem writable_iff_texts (fields : Plain) :
    fields.Writable context ↔ ∀ text ∈ fields.texts, context.Writable text := by
  cases fields with
  | push values =>
      have each (value : PushValue) :
          value.Writable context ↔ ∀ text ∈ value.texts, context.Writable text := by
        cases value <;> simp [PushValue.Writable, PushValue.texts]
      simp only [Writable, texts, List.forall_mem_flatMap, each]
  | _ => simp [Writable, texts]

end Plain

namespace Block

variable {Region : Type}

def texts : Block Region → List String
  | defineFunction name params _ => name :: params
  | defineFunction2 name _ _ params _ => name :: params.map fun param => param.name
  | tryCatch _ target _ _ => target.texts
  | withObject _ => []

/-- The numbers of parameters that a header says in 16 bits. -/
def counts : Block Region → List Nat
  | defineFunction _ params _ => [params.length]
  | defineFunction2 _ _ _ params _ => [params.length]
  | tryCatch _ _ _ _ | withObject _ => []

theorem textSize_le_headerSize {fields : Block Region} (member : text ∈ fields.texts) :
    context.textSize text ≤ fields.headerSize context := by
  cases fields with
  | defineFunction name params body =>
      rw [headerSize]
      rcases List.mem_cons.mp member with rfl | member
      · omega
      · have inside := @le_sumOver_of_mem _ context.textSize _ _ member
        omega
  | defineFunction2 name registerCount flags params body =>
      rw [headerSize]
      rcases List.mem_cons.mp member with rfl | member
      · omega
      · obtain ⟨param, listed, rfl⟩ := List.mem_map.mp member
        have inside := @le_sumOver_of_mem _ (RegisterParam.size context) _ _ listed
        rw [RegisterParam.size] at inside
        omega
  | tryCatch tryBody target catchBody finallyBody =>
      cases target with
      | name text =>
          rw [List.mem_singleton.mp member]
          exact Nat.le_add_left ..
      | register index => cases member
  | withObject body => cases member

theorem count_le_headerSize {fields : Block Region} (member : count ∈ fields.counts) :
    count ≤ fields.headerSize context := by
  cases fields with
  | defineFunction name params body =>
      have counted : params.length ≤ sumOver context.textSize params :=
        length_le_sumOver fun text _ => context.textSize_pos text
      rw [List.mem_singleton.mp member, headerSize]
      omega
  | defineFunction2 name registerCount flags params body =>
      have counted : params.length ≤ sumOver (RegisterParam.size context) params :=
        length_le_sumOver fun param _ => Nat.le_add_right ..
      rw [List.mem_singleton.mp member, headerSize]
      omega
  | tryCatch tryBody target catchBody finallyBody => cases member
  | withObject body => cases member

theorem writable_iff_texts (fields : Block Region) :
    fields.Writable context ↔ ∀ text ∈ fields.texts, context.Writable text := by
  cases fields with
  | tryCatch tryBody target catchBody finallyBody =>
      cases target <;> simp [Writable, texts, CatchTarget.Writable, CatchTarget.texts]
  | _ => simp [Writable, texts]

end Block

end Fields

namespace Action

variable {context : Context} {text : String} {count : Nat} {action : Action}

/-- The texts in the fields of an action, its regions apart. -/
def texts : Action → List String
  | plain fields => fields.texts
  | block fields => fields.texts
  | basic _ | call | unknown _ _ => []

/-- The numbers of entries and parameters that the header of an action says in 16 bits. -/
def counts : Action → List Nat
  | plain fields => fields.counts
  | block fields => fields.counts
  | basic _ | call | unknown _ _ => []

/-- The number of bytes that the length field of an action counts. -/
def headerLength (context : Context) : Action → Nat
  | plain fields => fields.headerSize context
  | block fields => fields.headerSize context
  | unknown _ body => body.length
  | basic _ | call => 0

/-- An action that can be encoded once the actions in its regions can. -/
structure Encodable (context : Context) (action : Action) : Prop where
  texts_held : ∀ text ∈ action.texts, context.CanHold text
  header_counted : action.headerLength context ≤ 65535
  regions_counted : ∀ region ∈ action.regions, totalSize context region ≤ 65535

theorem encodable_iff (context : Context) (action : Action) :
    action.Encodable context ↔
      (∀ text ∈ action.texts, context.CanHold text) ∧ action.headerLength context ≤ 65535 ∧
        ∀ region ∈ action.regions, totalSize context region ≤ 65535 :=
  ⟨fun encodable => ⟨encodable.1, encodable.2, encodable.3⟩,
    fun parts => ⟨parts.1, parts.2.1, parts.2.2⟩⟩

instance (context : Context) : DecidablePred (Encodable context) := fun action =>
  decidable_of_iff' _ (encodable_iff context action)

theorem textSize_le_headerLength (member : text ∈ action.texts) :
    context.textSize text ≤ action.headerLength context := by
  cases action with
  | plain fields => exact Plain.textSize_le_headerSize member
  | block fields => exact Block.textSize_le_headerSize member
  | _ => cases member

/-- Every entry and every parameter takes a byte at least. -/
theorem count_le_headerLength (member : count ∈ action.counts) :
    count ≤ action.headerLength context := by
  cases action with
  | plain fields => exact Plain.count_le_headerSize member
  | block fields => exact Block.count_le_headerSize member
  | _ => cases member

/-- The texts of a header that can be counted are written if the context can hold them. -/
theorem texts_writable_iff (short : action.headerLength context ≤ 65535) :
    (∀ text ∈ action.texts, context.Writable text) ↔
      ∀ text ∈ action.texts, context.CanHold text := by
  apply forall₂_congr
  intro text member
  exact Context.writable_iff_canHold (Nat.le_trans (textSize_le_headerLength member) short)

theorem fits_iff (producible : action.Producible) :
    action.Fits context ↔
      (∀ text ∈ action.texts, context.Writable text) ∧ action.headerLength context ≤ 65535 ∧
        ∀ region ∈ action.regions, totalSize context region ≤ 65535 := by
  cases action with
  | plain fields => simp [Fits, Plain.writable_iff_texts, texts, headerLength, regions]
  | block fields => simp [Fits, Block.writable_iff_texts, texts, headerLength, regions]
  | unknown opcode body =>
      have standsAlone : isFixedForm opcode = true → body.length ≤ 65535 := by
        intro fixed
        rw [producible.2 fixed]
        exact Nat.zero_le _
      simpa [Fits, texts, headerLength, regions] using standsAlone
  | basic op => simp [Fits, texts, headerLength, regions]
  | call => simp [Fits, texts, headerLength, regions]

theorem fits_iff_encodable (producible : action.Producible) :
    action.Fits context ↔ action.Encodable context := by
  rw [fits_iff producible, encodable_iff]
  constructor
  · rintro ⟨writable, short, small⟩
    exact ⟨(texts_writable_iff short).mp writable, short, small⟩
  · rintro ⟨held, short, small⟩
    exact ⟨(texts_writable_iff short).mpr held, short, small⟩

theorem encodeAll_error {actions : List Action} {error : CodecError}
    (failure : encodeAll context actions = .error error) : error.OfEncoding := by
  have appends := appends_writeAll_of_forall fun action (_ : action ∈ actions) =>
    appends_write context action
  rw [encodeAll, Writer.output] at failure
  cases outcome : writeAll context actions Buffer.empty with
  | ok _ after =>
      rw [outcome] at failure
      cases failure
  | error cause after =>
      rw [outcome] at failure
      cases failure
      exact (appends.of_error outcome).2

/-- Encoding succeeds exactly if every action at every depth is encodable, and otherwise fails with
a text or a size; the counts of a header that can be counted are not cut to 16 bits. -/
theorem encodeAll_succeeds_iff_encodable {actions : List Action}
    (producible : Throughout Producible actions) :
    ((∃ bytes, encodeAll context actions = .ok bytes) ↔
      Throughout (Encodable context) actions) ∧
    (∀ error, encodeAll context actions = .error error →
      (∃ opcode length, error = .bodyTooLarge opcode length) ∨
        ∃ fault, error = .invalidText fault) ∧
    Throughout (fun action => action.headerLength context ≤ 65535 →
      ∀ count ∈ action.counts, (UInt16.ofNat count).toNat = count) actions := by
  refine ⟨?_, ?_, ?_⟩
  · simp only [encodeAll_eq_ok_iff, exists_and_left, exists_eq, and_true]
    apply forall₂_congr
    intro action within
    exact fits_iff_encodable (producible action within)
  · intro error failure
    have ofEncoding := encodeAll_error failure
    cases error with
    | bodyTooLarge opcode length => exact .inl ⟨opcode, length, rfl⟩
    | invalidText fault => exact .inr ⟨fault, rfl⟩
    | _ => exact ofEncoding.elim
  · intro action _ short count member
    have counted := Nat.le_trans (count_le_headerLength member) short
    exact UInt16.toNat_ofNat_of_lt' (Nat.lt_succ_of_le counted)

/-- A handler around a jump to a label, with a pool of two strings in front. -/
def labelHandler (label : String) : List Action :=
  [.plain (.constantPool ["a", label]),
    .block (.tryCatch [.plain (.gotoLabel label)] (.name "e") [] [.unknown 0x16 []])]

/-- The last character of the first 256 is written in version 5, the next one is not. -/
theorem encodeAll_succeeds_iff_encodable_labelHandler :
    (∃ bytes, encodeAll { version := 5 } (labelHandler "\xFF") = .ok bytes) ∧
      ∀ bytes, encodeAll { version := 5 } (labelHandler "\u0100") ≠ .ok bytes := by
  have lastProducible : Throughout Producible (labelHandler "\xFF") := by decide
  have nextProducible : Throughout Producible (labelHandler "\u0100") := by decide
  refine ⟨(encodeAll_succeeds_iff_encodable lastProducible).1.mpr (by decide), ?_⟩
  intro bytes encoded
  have encodable := (encodeAll_succeeds_iff_encodable nextProducible).1.mp ⟨bytes, encoded⟩
  exact absurd encodable (by decide)

end Action

end ActionStream
