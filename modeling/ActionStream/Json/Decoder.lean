import ActionStream.Error
import ActionStream.Json.Document
import ActionStream.Json.Literal
/-!
# Typed reading of JSON values

A decoder takes a value apart from its start to its end, so the first failure is the first one in
the order of the text.  Every list and object that is taken apart uses up one of a limited number
of levels.  Records may be given as objects, with the members in any order, or as lists of their
fields in order; of several alternatives one is chosen by name.
-/

namespace ActionStream.Json

inductive Refusal where
  /-- The text is no JSON text or has another shape than it should. -/
  | malformed
  /-- A value is refused by the rules of actions. -/
  | invalid (error : CodecError)
  deriving DecidableEq, Repr

/-- Reads a value with a number of levels that may be open inside it. -/
abbrev Decoder (α : Type) := Nat → Value → Except Refusal α

/-- The number of lists and objects that may be open at a time. -/
def deepestOpen : Nat := 127

namespace Decoder

def check {α : Type} : Except CodecError α → Except Refusal α
  | .ok value => .ok value
  | .error error => .error (.invalid error)

def ofOption {α : Type} : Option α → Except Refusal α
  | some value => .ok value
  | none => .error .malformed

/-- A decoder whose result is checked by the rules of actions. -/
def checked {α β : Type} (decoder : Decoder α) (rule : α → Except CodecError β) : Decoder β :=
  fun levels value => do
    let raw ← decoder levels value
    check (rule raw)

def mapped {α β : Type} (decoder : Decoder α) (wrap : α → β) : Decoder β :=
  fun levels value => wrap <$> decoder levels value

def text : Decoder String
  | _, .text value => .ok value
  | _, _ => .error .malformed

def boolean : Decoder Bool
  | _, .boolean value => .ok value
  | _, _ => .error .malformed

def unit : Decoder Unit
  | _, .null => .ok ()
  | _, _ => .error .malformed

/-- Nothing, or else what another decoder reads. -/
def optional {α : Type} (decoder : Decoder α) : Decoder (Option α)
  | _, .null => .ok none
  | levels, value => some <$> decoder levels value

def integer (least greatest : Int) : Decoder Int
  | _, .number literal =>
    match integer? literal with
    | some value => if least ≤ value ∧ value ≤ greatest then .ok value else .error .malformed
    | none => .error .malformed
  | _, _ => .error .malformed

def natural (greatest : Nat) : Decoder Nat :=
  mapped (integer 0 greatest) Int.toNat

def word8 : Decoder UInt8 := mapped (natural 255) UInt8.ofNat

def word16 : Decoder UInt16 := mapped (natural 65535) UInt16.ofNat

def word32 : Decoder UInt32 := mapped (natural 4294967295) UInt32.ofNat

def signed16 : Decoder Int16 := mapped (integer (-32768) 32767) Int16.ofInt

def signed32 : Decoder Int32 := mapped (integer (-2147483648) 2147483647) Int32.ofInt

def double : Decoder Binary64
  | _, .number literal => ofOption (double? literal)
  | _, _ => .error .malformed

def listOf {α : Type} (item : Decoder α) : Decoder (List α)
  | levels + 1, .list items closed => do
    let values ← items.mapM (item levels)
    if closed then return values else throw .malformed
  | _, _ => .error .malformed

/-- One of several alternatives.  An alternative without content is its name or an object with its
name and nothing; one with content is an object with its name and the content. -/
def choice {α : Type} (alone : String → Option α) (carrying : String → Option (Decoder α)) :
    Decoder α
  | _, .text name => ofOption (alone name)
  | levels + 1, .object ((some name, content) :: others) closed => do
    let value ←
      match carrying name, alone name with
      | some decoder, _ => decoder levels content
      | none, some value => (fun _ => value) <$> unit levels content
      | none, none => throw .malformed
    if others.isEmpty && closed then return value else throw .malformed
  | _, _ => .error .malformed

def alternative {α : Type} (alone : String → Option α) : Decoder α :=
  choice alone fun _ => none

end Decoder

/-- A field of a record: its name, its decoder, and what it is when it is absent. -/
structure FieldForm (α : Type) where
  name : String
  decoder : Decoder α
  absent : Option α

/-- The fields of a record in order.  The first type collects the fields that have been read, the
second one holds all of them. -/
inductive RecordForm : Type → Type → Type 1 where
  | done : RecordForm Unit Unit
  | field {α Draft Record : Type} (form : FieldForm α) (rest : RecordForm Draft Record) :
      RecordForm (Option α × Draft) (α × Record)

namespace RecordForm

def required {α Draft Record : Type} (name : String) (decoder : Decoder α)
    (rest : RecordForm Draft Record) : RecordForm (Option α × Draft) (α × Record) :=
  field ⟨name, decoder, none⟩ rest

def defaulted {α Draft Record : Type} (name : String) (decoder : Decoder α) (absent : α)
    (rest : RecordForm Draft Record) : RecordForm (Option α × Draft) (α × Record) :=
  field ⟨name, decoder, some absent⟩ rest

def initial {Draft Record : Type} : RecordForm Draft Record → Draft
  | done => ()
  | field _ rest => (none, rest.initial)

/-- The record, if every field has been read or may be absent. -/
def finish {Draft Record : Type} : RecordForm Draft Record → Draft → Except Refusal Record
  | done, _ => .ok ()
  | field form rest, (read, draft) => do
    let value ← Decoder.ofOption (read <|> form.absent)
    let others ← rest.finish draft
    return (value, others)

/-- Reads the member with the given name; a member that has been read already is refused, and the
result is missing if no field has the name. -/
def readMember {Draft Record : Type} (levels : Nat) (name : String) (content : Value) :
    RecordForm Draft Record → Draft → Option (Except Refusal Draft)
  | done, _ => none
  | field form rest, (read, draft) =>
    if form.name = name then
      match read with
      | some _ => some (.error .malformed)
      | none => some ((fun value => (some value, draft)) <$> form.decoder levels content)
    else (rest.readMember levels name content draft).map ((fun others => (read, others)) <$> ·)

/-- Reads the members of an object in order.  Members without a field are passed over unless the
record is strict. -/
def readMembers {Draft Record : Type} (record : RecordForm Draft Record) (strict : Bool)
    (levels : Nat) (draft : Draft) : List (Option String × Value) → Except Refusal Draft
  | [] => .ok draft
  | (none, _) :: _ => .error .malformed
  | (some name, content) :: rest =>
    match record.readMember levels name content draft with
    | some (.ok draft) => record.readMembers strict levels draft rest
    | some (.error refusal) => .error refusal
    | none => if strict then .error .malformed else record.readMembers strict levels draft rest

/-- Reads the items of a list as the fields in order; there may be fewer items than fields. -/
def readItems {Draft Record : Type} (levels : Nat) :
    RecordForm Draft Record → List Value → Except Refusal Draft
  | record, [] => .ok record.initial
  | done, _ :: _ => .error .malformed
  | field form rest, item :: items => do
    let value ← form.decoder levels item
    let draft ← rest.readItems levels items
    return (some value, draft)

/-- The fields of a record that is given as an object or as a list. -/
def draft {Draft Record : Type} (record : RecordForm Draft Record) (strict : Bool) (levels : Nat) :
    Value → Except Refusal Draft
  | .object members closed => do
    let draft ← record.readMembers strict levels record.initial members
    if closed then return draft else throw .malformed
  | .list items closed => do
    let draft ← record.readItems levels items
    if closed then return draft else throw .malformed
  | _ => .error .malformed

/-- A record, made into a value of its type under the rules of actions once it is complete. -/
def decoderOf {Draft Record α : Type} (record : RecordForm Draft Record) (strict : Bool)
    (make : Record → Except CodecError α) : Decoder α
  | levels + 1, value => do
    let fields ← record.draft strict levels value
    let complete ← record.finish fields
    Decoder.check (make complete)
  | 0, _ => .error .malformed

/-- A record that is not restricted further and that may have members without a field. -/
def decoder {Draft Record α : Type} (record : RecordForm Draft Record) (make : Record → α) :
    Decoder α :=
  record.decoderOf false fun fields => .ok (make fields)

end RecordForm

def decodeText {α : Type} (decoder : Decoder α) (text : String) : Except Refusal α := do
  let document := Document.ofText text
  let value ← decoder deepestOpen document.root
  if document.trailing then throw .malformed else return value

end ActionStream.Json
