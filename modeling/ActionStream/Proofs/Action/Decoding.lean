import ActionStream.Action.Read
import ActionStream.Proofs.Action.Stream

/-!
# Reading one action

Reading an action accepts the forms of actions whose regions are what the region reader accepts.
The header is read from an input of its own, the regions from what follows it, and the bytes behind
the fields are refused only after the regions; the form puts them in the order of the stream.
-/

namespace ActionStream

/-- A length field tells how many bytes follow it. -/
theorem exists_declared_iff {bytes header : List UInt8} :
    (∃ declared : UInt16, header.length = declared.toNat ∧
      bytes = Wire.bytesOf16 declared ++ header) ↔
      header.length ≤ 65535 ∧ bytes = counted header := by
  constructor
  · rintro ⟨declared, sized, rfl⟩
    have bound := declared.toNat_lt
    exact ⟨by omega, by rw [counted, sized, UInt16.ofNat_toNat]⟩
  · rintro ⟨short, rfl⟩
    have small : header.length < 65536 := by omega
    exact ⟨_, (UInt16.toNat_ofNat_of_lt' small).symm, rfl⟩

namespace ActionForm

/-- A fixed-form opcode stands alone. -/
def AfterFixed (context : Context) (opcode : UInt8) : Form Action := fun back action =>
  back = [] ∧ ((∃ op : BasicOp, opcode = op.opcode ∧ action = .basic op) ∨
    (context.lenient = true ∧ Unlisted opcode ∧ action = .unknown opcode []))

/-- What follows the opcode of an action without regions. -/
def AfterPlain (context : Context) (kind : PlainKind) : Form Action := fun back action =>
  ∃ front extra fields, fields.kind = kind ∧ PlainHeader context front fields ∧
    (extra = [] ∨ (context.lenient = true ∧ kind ≠ .push)) ∧ (front ++ extra).length ≤ 65535 ∧
    back = counted (front ++ extra) ∧ action = .plain fields

/-- What follows the opcode of an action with regions. -/
def AfterBlock (context : Context) (Region : Form (List Action)) (kind : BlockKind) :
    Form Action := fun back action =>
  ∃ front extra, ∃ parts : Block (List UInt8 × List Action), parts.kind = kind ∧
    BlockHeader context front (parts.map fun part => UInt16.ofNat part.1.length) ∧
    (extra = [] ∨ context.lenient = true) ∧ (front ++ extra).length ≤ 65535 ∧
    (∀ part ∈ parts.regions, part.1.length ≤ 65535 ∧ Region part.1 part.2) ∧
    back = counted (front ++ extra) ++ parts.regions.flatMap (fun part => part.1) ∧
    action = .block (parts.map fun part => part.2)

/-- What follows the opcode of a frame call or of an opaque action. -/
def AfterBody (result : List UInt8 → Action) : Form Action := fun back action =>
  ∃ body, body.length ≤ 65535 ∧ back = counted body ∧ action = result body

/-- What follows an opcode is decided by the tables of opcodes. -/
def After (context : Context) (Region : Form (List Action)) (opcode : UInt8) : Form Action :=
  fun back action =>
    if isFixedForm opcode then AfterFixed context opcode back action
    else if opcode = callOpcode then AfterBody (fun _ => .call) back action
    else
      match PlainKind.ofOpcode? opcode, BlockKind.ofOpcode? opcode with
      | some kind, _ => AfterPlain context kind back action
      | none, some kind => AfterBlock context Region kind back action
      | none, none => AfterBody (.unknown opcode) back action

variable {context : Context} {Region : Form (List Action)} {opcode : UInt8} {back : List UInt8}
  {action : Action}

theorem after_of_cons (form : ActionForm context Region (opcode :: back) action) :
    After context Region opcode back action := by
  generalize bytesEq : opcode :: back = bytes at form
  unfold After
  cases form with
  | basic op =>
      obtain ⟨rfl, rfl⟩ := List.cons.inj bytesEq
      rw [if_pos op.isFixedForm_opcode]
      exact ⟨rfl, .inl ⟨op, rfl, rfl⟩⟩
  | gap allowed small unlisted =>
      obtain ⟨rfl, rfl⟩ := List.cons.inj bytesEq
      rw [if_pos (isFixedForm_iff.mpr small)]
      exact ⟨rfl, .inr ⟨allowed, unlisted, rfl⟩⟩
  | @plain front extra fields header filled short =>
      obtain ⟨rfl, rfl⟩ := List.cons.inj bytesEq
      obtain ⟨notFixed, notCall⟩ := fields.kind.opcode_apart
      rw [Plain.opcode, notFixed, if_neg Bool.false_ne_true, if_neg notCall.symm,
        PlainKind.ofOpcode?_opcode]
      exact ⟨front, extra, fields, rfl, header, filled, short, rfl, rfl⟩
  | @block front extra parts header filled short sized regions =>
      obtain ⟨rfl, rfl⟩ := List.cons.inj bytesEq
      obtain ⟨notFixed, notCall, notPlain⟩ := parts.kind.opcode_apart
      rw [Block.opcode, notFixed, if_neg Bool.false_ne_true, if_neg notCall.symm, notPlain,
        BlockKind.ofOpcode?_opcode]
      exact ⟨front, extra, parts, rfl, header, filled, short,
        fun part member => ⟨sized part member, regions part member⟩, rfl, rfl⟩
  | @call body short =>
      obtain ⟨rfl, rfl⟩ := List.cons.inj bytesEq
      exact ⟨body, short, rfl, rfl⟩
  | @unknown opcode body large unlisted short =>
      obtain ⟨rfl, rfl⟩ := List.cons.inj bytesEq
      rw [isFixedForm_eq_false_iff.mpr large, if_neg Bool.false_ne_true, if_neg unlisted.not_call,
        unlisted.plainKind_eq_none, unlisted.blockKind_eq_none]
      exact ⟨body, short, rfl, rfl⟩

theorem cons_of_after (after : After context Region opcode back action) :
    ActionForm context Region (opcode :: back) action := by
  unfold After at after
  cases fixed : isFixedForm opcode with
  | true =>
      rw [if_pos fixed] at after
      obtain ⟨rfl, ⟨op, rfl, rfl⟩ | ⟨allowed, unlisted, rfl⟩⟩ := after
      · exact .basic op
      · exact .gap allowed (isFixedForm_iff.mp fixed) unlisted
  | false =>
      rw [fixed, if_neg Bool.false_ne_true] at after
      by_cases isCall : opcode = callOpcode
      · rw [if_pos isCall] at after
        obtain ⟨body, short, rfl, rfl⟩ := after
        rw [isCall]
        exact .call short
      rw [if_neg isCall] at after
      cases isPlain : PlainKind.ofOpcode? opcode with
      | some kind =>
          rw [isPlain] at after
          obtain ⟨front, extra, fields, rfl, header, filled, short, rfl, rfl⟩ := after
          rw [PlainKind.ofOpcode?_eq_some_iff.mp isPlain]
          exact .plain header filled short
      | none =>
          rw [isPlain] at after
          cases isBlock : BlockKind.ofOpcode? opcode with
          | some kind =>
              rw [isBlock] at after
              obtain ⟨front, extra, parts, rfl, header, filled, short, regions, rfl, rfl⟩ := after
              rw [BlockKind.ofOpcode?_eq_some_iff.mp isBlock]
              exact .block header filled short (fun part member => (regions part member).1)
                fun part member => (regions part member).2
          | none =>
              rw [isBlock] at after
              obtain ⟨body, short, rfl, rfl⟩ := after
              exact .unknown (isFixedForm_eq_false_iff.mp fixed)
                (.of_not_fixed fixed isPlain isBlock isCall) short

theorem cons_iff :
    ActionForm context Region (opcode :: back) action ↔ After context Region opcode back action :=
  ⟨after_of_cons, cons_of_after⟩

end ActionForm

namespace Action

variable {marks : List Nat}

theorem accepts_closeHeader (context : Context) (opcode : UInt8) (declared : Nat) (left : Cursor) :
    Reader.Accepts marks (closeHeader context opcode declared left) fun front _ =>
      front = [] ∧ (left.unread = [] ∨ context.lenient = true) := by
  unfold closeHeader
  have atEnd : left.atEnd = true ↔ left.unread = [] := by simp [Cursor.atEnd]
  split
  next closed =>
    refine (Reader.accepts_pure ()).congr fun front _ => ?_
    rw [atEnd] at closed
    simp [closed]
  next refused =>
    refine (Reader.accepts_throw _).congr fun front _ => ?_
    rw [atEnd] at refused
    simp [refused]

theorem accepts_readPlain (context : Context) (kind : PlainKind) :
    Reader.Accepts marks (readPlain context kind) (ActionForm.AfterPlain context kind) := by
  have composed : Reader.Accepts marks _ _ := (Reader.accepts_word16As "u16").bind fun declared =>
    (Reader.accepts_part declared.toNat "action body").bind fun header =>
      (Reader.accepts_within header (Plain.read context kind)).bind fun result =>
        (accepts_closeHeader context kind.opcode declared.toNat result.2).andReturn fun _ =>
          plain result.1
  refine Reader.Accepts.congr composed fun bytes action => ?_
  constructor
  · rintro ⟨_, _, declared, rfl, ⟨header, _, _, ⟨rfl, sized⟩, ⟨_, _, ⟨fields, left⟩,
      ⟨rfl, readFields⟩, ⟨_, ⟨rfl, closed⟩, rfl⟩, rfl⟩, rfl⟩, rfl⟩
    obtain ⟨front, extra, rfl, rfl, sameKind, form, filled⟩ :=
      (Plain.read_eq_ok_iff ..).mp readFields
    obtain ⟨short, same⟩ := exists_declared_iff.mp ⟨declared, sized, rfl⟩
    refine ⟨front, extra, fields, sameKind, form, ?_, short, by simpa using same, rfl⟩
    by_cases nothingLeft : extra = []
    · exact .inl nothingLeft
    · exact .inr ⟨closed.resolve_left nothingLeft, fun isPush => nothingLeft (filled isPush)⟩
  · rintro ⟨front, extra, fields, sameKind, form, filled, short, rfl, rfl⟩
    obtain ⟨declared, sized, same⟩ := exists_declared_iff.mpr ⟨short, rfl⟩
    have readFields := (Plain.read_eq_ok_iff context kind (front ++ extra) fields
      ⟨extra, front.length, []⟩).mpr ⟨front, extra, rfl, rfl, sameKind, form,
        fun isPush => filled.resolve_right fun longer => longer.2 isPush⟩
    exact ⟨_, _, declared, rfl, ⟨_, [], _, ⟨rfl, sized⟩, ⟨[], [], (fields, _), ⟨rfl, readFields⟩,
      ⟨(), ⟨rfl, filled.imp_right And.left⟩, rfl⟩, rfl⟩, rfl⟩, by rw [same, List.append_nil]⟩

theorem accepts_readCall :
    Reader.Accepts marks readCall (ActionForm.AfterBody fun _ => .call) := by
  have composed : Reader.Accepts marks _ _ := (Reader.accepts_word16As "u16").bind fun declared =>
    (Reader.accepts_skip declared.toNat).andReturn fun _ => call
  refine Reader.Accepts.congr composed fun bytes action => ?_
  constructor
  · rintro ⟨_, body, declared, rfl, ⟨_, sized, rfl⟩, rfl⟩
    obtain ⟨short, same⟩ := exists_declared_iff.mp ⟨declared, sized, rfl⟩
    exact ⟨body, short, same, rfl⟩
  · rintro ⟨body, short, rfl, rfl⟩
    obtain ⟨declared, sized, same⟩ := exists_declared_iff.mpr ⟨short, rfl⟩
    exact ⟨_, body, declared, rfl, ⟨(), sized, rfl⟩, same⟩

theorem accepts_readUnknown (opcode : UInt8) :
    Reader.Accepts marks (readUnknown opcode) (ActionForm.AfterBody (.unknown opcode)) := by
  have body (count : Nat) : Reader.Accepts marks (unknown opcode <$> Reader.block count) _ :=
    (Reader.accepts_take count "byte block").map
  have composed : Reader.Accepts marks _ _ := (Reader.accepts_word16As "u16").bind fun declared =>
    body declared.toNat
  refine Reader.Accepts.congr composed fun bytes action => ?_
  constructor
  · rintro ⟨_, _, declared, rfl, ⟨body, ⟨rfl, sized⟩, rfl⟩, rfl⟩
    obtain ⟨short, same⟩ := exists_declared_iff.mp ⟨declared, sized, rfl⟩
    exact ⟨body, short, same, rfl⟩
  · rintro ⟨body, short, rfl, rfl⟩
    obtain ⟨declared, sized, same⟩ := exists_declared_iff.mpr ⟨short, rfl⟩
    exact ⟨_, body, declared, rfl, ⟨body, ⟨rfl, sized⟩, rfl⟩, same⟩

theorem accepts_fixedForm (context : Context) {opcode : UInt8} (fixed : isFixedForm opcode = true) :
    Reader.Accepts marks (Reader.ofExcept (ofFixedForm context opcode))
      (ActionForm.AfterFixed context opcode) := by
  refine (Reader.accepts_ofExcept _).congr fun back action => ?_
  rw [ActionForm.AfterFixed, Unlisted.iff_of_fixed fixed]
  simp only [ofFixedForm, ← BasicOp.ofOpcode?_eq_some_iff]
  cases BasicOp.ofOpcode? opcode with
  | some op => simp [@eq_comm _ action]
  | none => cases context.lenient <;> simp [@eq_comm _ action]

section

variable {region : Nat → Reader (List Action)} {Region : Form (List Action)}
  (accepts : ∀ size, Reader.Accepts marks (region size) fun front actions =>
    front.length = size ∧ Region front actions)

include accepts

theorem accepts_readBlock (context : Context) (kind : BlockKind) :
    Reader.Accepts marks (readBlock region context kind)
      (ActionForm.AfterBlock context Region kind) := by
  have composed : Reader.Accepts marks _ _ := (Reader.accepts_word16As "u16").bind fun declared =>
    (Reader.accepts_part declared.toNat "action body").bind fun header =>
      (Reader.accepts_within header (Block.read context kind)).bind fun result =>
        (Block.accepts_visit (fun size => accepts size.toNat) result.1).bind fun fields =>
          (accepts_closeHeader context kind.opcode declared.toNat result.2).andReturn fun _ =>
            block fields
  refine Reader.Accepts.congr composed fun bytes action => ?_
  constructor
  · rintro ⟨_, _, declared, rfl, ⟨header, _, _, ⟨rfl, sized⟩, ⟨_, _, ⟨fields, left⟩,
      ⟨rfl, readFields⟩, ⟨_, _, _, ⟨parts, rfl, rfl, forms, rfl⟩, ⟨_, ⟨rfl, closed⟩, rfl⟩,
        rfl⟩, rfl⟩, rfl⟩, rfl⟩
    obtain ⟨front, extra, rfl, rfl, sameKind, form⟩ := (Block.read_eq_ok_iff ..).mp readFields
    obtain ⟨short, same⟩ := exists_declared_iff.mp ⟨declared, sized, rfl⟩
    -- The sizes in the header are the lengths of the regions that were read.
    have sizes : (parts.map fun part => part.2).map (fun part => UInt16.ofNat part.1.length) =
        parts.map fun part => part.1 := by
      rw [Block.map_map]
      refine Block.map_congr _ _ fun part member => ?_
      rw [(forms part member).1, UInt16.ofNat_toNat]
    refine ⟨front, extra, parts.map fun part => part.2, by simpa using sameKind, sizes ▸ form,
      closed, short, ?_, ?_, by rw [Block.map_map]⟩
    · rw [Block.regions_map, List.forall_mem_map]
      intro part member
      obtain ⟨lengthEq, isRegion⟩ := forms part member
      have bound := part.1.toNat_lt
      exact ⟨by omega, isRegion⟩
    · rw [← same, Block.regions_map, List.flatMap_map]
      simp
  · rintro ⟨front, extra, parts, sameKind, form, filled, short, regions, rfl, rfl⟩
    obtain ⟨declared, declaredEq, same⟩ := exists_declared_iff.mpr ⟨short, rfl⟩
    generalize sizedEq : parts.map (fun part => UInt16.ofNat part.1.length) = sized at form
    have sizedKind : sized.kind = kind := by rw [← sizedEq, Block.kind_map, sameKind]
    have readFields := (Block.read_eq_ok_iff context kind (front ++ extra) sized
      ⟨extra, front.length, []⟩).mpr ⟨front, extra, rfl, rfl, sizedKind, form⟩
    refine ⟨_, _, declared, rfl, ⟨_, _, _, ⟨rfl, declaredEq⟩, ⟨[], _, (sized, _), ⟨rfl, readFields⟩,
      ⟨_, [], _, ⟨parts.map fun part => (UInt16.ofNat part.1.length, part.1, part.2),
        (Block.map_map ..).trans sizedEq, rfl, ?_, rfl⟩,
        ⟨(), ⟨rfl, filled⟩, ?_⟩, rfl⟩, rfl⟩, rfl⟩, ?_⟩
    · rw [Block.regions_map, List.forall_mem_map]
      intro part member
      obtain ⟨bound, isRegion⟩ := regions part member
      have small : part.1.length < 65536 := by omega
      exact ⟨(UInt16.toNat_ofNat_of_lt' small).symm, isRegion⟩
    · rw [Block.map_map]
    · rw [same, Block.regions_map, List.flatMap_map]
      simp

theorem accepts_readAfter (context : Context) (opcode : UInt8) :
    Reader.Accepts marks (readAfter region context opcode) fun back action =>
      ActionForm context Region (opcode :: back) action := by
  refine Reader.Accepts.congr ?_ fun back action => ActionForm.cons_iff.symm
  unfold readAfter ActionForm.After
  refine .ite (fun fixed => accepts_fixedForm context fixed) fun _ => ?_
  refine .ite (fun _ => accepts_readCall) fun _ => ?_
  cases PlainKind.ofOpcode? opcode with
  | some kind => exact accepts_readPlain context kind
  | none =>
      cases BlockKind.ofOpcode? opcode with
      | some kind => exact accepts_readBlock accepts context kind
      | none => exact accepts_readUnknown opcode

theorem accepts_readWith (context : Context) :
    Reader.Accepts marks (readWith region context) (ActionForm context Region) :=
  Reader.accepts_led ActionForm.nonempty (accepts_readAfter accepts context)

end

end Action

end ActionStream
