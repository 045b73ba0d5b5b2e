import ActionStream.Action.Basic

/-!
# The tables of opcodes

Every form of action has its own opcodes, those without a length field up to `0x7F` and the others
from `0x80` on.  Looking an opcode up finds the row that has it, so an opcode without a row is one
that is found nowhere.
-/

namespace ActionStream

theorem isFixedForm_iff {opcode : UInt8} : isFixedForm opcode = true ↔ opcode ≤ 0x7F :=
  decide_eq_true_iff

theorem isFixedForm_eq_false_iff {opcode : UInt8} : isFixedForm opcode = false ↔ 0x80 ≤ opcode := by
  rw [← Bool.not_eq_true, isFixedForm_iff, UInt8.le_iff_toNat_le, UInt8.le_iff_toNat_le]
  simp only [UInt8.reduceToNat]
  omega

/-- Looking a key up in a table finds the row with this key, if every row is found by its own. -/
theorem find?_key_eq_some_iff {Row Key : Type} [BEq Key] [LawfulBEq Key] {rows : List Row}
    {keyOf : Row → Key} {key : Key} {row : Row}
    (finds : rows.find? (fun other => keyOf other == keyOf row) = some row) :
    rows.find? (fun other => keyOf other == key) = some row ↔ key = keyOf row := by
  constructor
  · intro found
    have same := List.find?_some found
    exact (eq_of_beq same).symm
  · rintro rfl
    exact finds

theorem BasicOp.ofOpcode?_eq_some_iff {opcode : UInt8} {op : BasicOp} :
    ofOpcode? opcode = some op ↔ opcode = op.opcode :=
  find?_key_eq_some_iff op.ofOpcode?_opcode

theorem PlainKind.ofOpcode?_eq_some_iff {opcode : UInt8} {kind : PlainKind} :
    ofOpcode? opcode = some kind ↔ opcode = kind.opcode :=
  find?_key_eq_some_iff kind.ofOpcode?_opcode

theorem BlockKind.ofOpcode?_eq_some_iff {opcode : UInt8} {kind : BlockKind} :
    ofOpcode? opcode = some kind ↔ opcode = kind.opcode :=
  find?_key_eq_some_iff kind.ofOpcode?_opcode

/-- The kinds without regions have opcodes of their own, which a length field follows. -/
theorem PlainKind.opcode_apart (kind : PlainKind) :
    isFixedForm kind.opcode = false ∧ callOpcode ≠ kind.opcode := by
  cases kind <;> decide

/-- The kinds with regions have opcodes of their own, which a length field follows. -/
theorem BlockKind.opcode_apart (kind : BlockKind) :
    isFixedForm kind.opcode = false ∧ callOpcode ≠ kind.opcode ∧
      PlainKind.ofOpcode? kind.opcode = none := by
  cases kind <;> decide

/-- An opcode without a row in the tables. -/
structure Unlisted (opcode : UInt8) : Prop where
  not_basic : ∀ op : BasicOp, opcode ≠ op.opcode
  not_plain : ∀ kind : PlainKind, opcode ≠ kind.opcode
  not_block : ∀ kind : BlockKind, opcode ≠ kind.opcode
  not_call : opcode ≠ callOpcode

namespace Unlisted

variable {opcode : UInt8}

theorem plainKind_eq_none (unlisted : Unlisted opcode) : PlainKind.ofOpcode? opcode = none := by
  simpa [Option.eq_none_iff_forall_ne_some, PlainKind.ofOpcode?_eq_some_iff] using
    unlisted.not_plain

theorem blockKind_eq_none (unlisted : Unlisted opcode) : BlockKind.ofOpcode? opcode = none := by
  simpa [Option.eq_none_iff_forall_ne_some, BlockKind.ofOpcode?_eq_some_iff] using
    unlisted.not_block

/-- Of the opcodes without a length field only the basic operations have rows. -/
theorem iff_of_fixed (fixed : isFixedForm opcode = true) :
    Unlisted opcode ↔ BasicOp.ofOpcode? opcode = none := by
  simp only [Option.eq_none_iff_forall_ne_some, ne_eq, BasicOp.ofOpcode?_eq_some_iff]
  refine ⟨not_basic, fun notBasic => ⟨notBasic, ?_, ?_, ?_⟩⟩
  · rintro kind rfl
    exact Bool.false_ne_true (kind.opcode_apart.1.symm.trans fixed)
  · rintro kind rfl
    exact Bool.false_ne_true (kind.opcode_apart.1.symm.trans fixed)
  · rintro rfl
    cases fixed

theorem of_not_fixed (fixed : isFixedForm opcode = false)
    (notPlain : PlainKind.ofOpcode? opcode = none) (notBlock : BlockKind.ofOpcode? opcode = none)
    (notCall : opcode ≠ callOpcode) : Unlisted opcode where
  not_basic := by
    rintro op rfl
    exact Bool.false_ne_true (fixed.symm.trans op.isFixedForm_opcode)
  not_plain := by
    simpa [Option.eq_none_iff_forall_ne_some, PlainKind.ofOpcode?_eq_some_iff] using notPlain
  not_block := by
    simpa [Option.eq_none_iff_forall_ne_some, BlockKind.ofOpcode?_eq_some_iff] using notBlock
  not_call := notCall

end Unlisted

theorem isKnownOpcode_eq_false_iff {opcode : UInt8} :
    isKnownOpcode opcode = false ↔ Unlisted opcode := by
  rw [isKnownOpcode]
  cases fixed : isFixedForm opcode with
  | true =>
      rw [if_pos rfl, Option.isSome_eq_false_iff, Option.isNone_iff_eq_none,
        Unlisted.iff_of_fixed fixed]
  | false =>
      simp only [Bool.false_eq_true, if_false, Bool.or_eq_false_iff, Option.isSome_eq_false_iff,
        Option.isNone_iff_eq_none, beq_eq_false_iff_ne]
      constructor
      · rintro ⟨⟨notPlain, notBlock⟩, notCall⟩
        exact .of_not_fixed fixed notPlain notBlock notCall
      · exact fun unlisted =>
          ⟨⟨unlisted.plainKind_eq_none, unlisted.blockKind_eq_none⟩, unlisted.not_call⟩

end ActionStream
