import ActionStream.Proofs.Action.Refusals

/-!
# Where the parts of an encoded action are

An encoded action with a length field is its opcode, the length, a header of that length and the
regions in their order.  The header says at fixed places how long the regions are: an exception
handler has the three sizes behind its flag byte, and the other headers end with the one size.
-/

namespace ActionStream

namespace Wire

/-- The word whose first byte is at an offset; zero if the byte string ends before. -/
def wordAt (bytes : List UInt8) (offset : Nat) : UInt16 :=
  match bytes.drop offset with
  | first :: second :: _ => word16 first second
  | _ => 0

theorem wordAt_of_split {bytes front rest : List UInt8} {word : UInt16}
    (split : bytes = front ++ (bytesOf16 word ++ rest)) : wordAt bytes front.length = word := by
  rw [split, wordAt, List.drop_left]
  exact word16_bytesOf16 word

theorem wordAt_of_suffix {bytes : List UInt8} {word : UInt16} (suffix : bytesOf16 word <:+ bytes) :
    wordAt bytes (bytes.length - 2) = word := by
  obtain ⟨front, rfl⟩ := suffix
  have split : front ++ bytesOf16 word = front ++ (bytesOf16 word ++ []) := by
    rw [List.append_nil]
  rw [List.length_append, length_bytesOf16, Nat.add_sub_cancel]
  exact wordAt_of_split split

end Wire

/-- Where a header of a given length holds the sizes of the regions. -/
def BlockKind.sizeOffsets (length : Nat) : BlockKind → List Nat
  | tryCatch => [1, 3, 5]
  | defineFunction | defineFunction2 | withObject => [length - 2]

/-- The sizes of the regions that a header of a kind says. -/
def BlockKind.sizesIn (kind : BlockKind) (header : List UInt8) : List UInt16 :=
  (kind.sizeOffsets header.length).map (Wire.wordAt header)

theorem Block.sizesIn_bytes (context : Context) (sized : Block UInt16) :
    sized.kind.sizesIn (sized.bytes context) = sized.regions := by
  cases sized with
  | defineFunction name params bodySize =>
      have suffix : Wire.bytesOf16 bodySize <:+
          (defineFunction name params bodySize).bytes context :=
        List.suffix_append_of_suffix (List.suffix_append_of_suffix (List.suffix_append ..))
      exact congrArg (fun word => [word]) (Wire.wordAt_of_suffix suffix)
  | defineFunction2 name registerCount flags params bodySize =>
      have suffix : Wire.bytesOf16 bodySize <:+
          (defineFunction2 name registerCount flags params bodySize).bytes context :=
        List.suffix_append_of_suffix (List.suffix_append_of_suffix (List.suffix_append_of_suffix
          (List.suffix_append_of_suffix (List.suffix_append ..))))
      exact congrArg (fun word => [word]) (Wire.wordAt_of_suffix suffix)
  | tryCatch trySize target catchSize finallySize =>
      simp only [kind, BlockKind.sizesIn, BlockKind.sizeOffsets, bytes, Wire.bytesOf16, Wire.wordAt,
        List.map_cons, List.map_nil, List.cons_append, List.nil_append, List.drop_succ_cons,
        List.drop_zero, Wire.word16_bytesOf16, regions]
  | withObject bodySize =>
      exact congrArg (fun word => [word]) (Wire.wordAt_of_suffix (List.suffix_refl _))

namespace Action

variable {context : Context} {action : Action}

/-- The regions of an action, in the order in which they follow its header. -/
def regions : Action → List (List Action)
  | block fields => fields.regions
  | _ => []

/-- Writes what the length field of an action counts. -/
def writeFields (context : Context) : Action → Writer Unit
  | plain fields => fields.write context
  | block fields => writeBlockFields context fields
  | unknown _ body => Writer.block body
  | basic _ | call => pure ()

/-- The bytes that the length field of an action counts. -/
def headerBytes (context : Context) : Action → List UInt8
  | plain fields => fields.bytes context
  | block fields =>
    (fields.map fun region => UInt16.ofNat (totalSize context region)).bytes context
  | unknown _ body => body
  | basic _ | call => []

/-- The sizes of the regions of an action that its header says. -/
def declaredSizes (header : List UInt8) : Action → List Nat
  | block fields => (fields.kind.sizesIn header).map UInt16.toNat
  | _ => []

/-- The parts of an encoded action with a length field. -/
structure LaidOut (context : Context) (action : Action) (length : UInt16) (header : List UInt8)
    (regions : List (List UInt8)) : Prop where
  header_written : Writer.output (action.writeFields context) = .ok header
  header_length : header.length = length.toNat
  regions_written : action.regions.map (encodeAll context) = regions.map .ok
  region_sizes : regions.map List.length = action.declaredSizes header
  total : lengthHeaderSize + length.toNat + sumOver (totalSize context) action.regions =
    action.size context

theorem bytes_eq_headed (hasLength : isFixedForm action.opcode = false) :
    action.bytes context = headed action.opcode (action.headerBytes context) ++
      (action.regions.map (allBytes context)).flatten := by
  cases action with
  | basic op =>
      rw [opcode, op.isFixedForm_opcode] at hasLength
      cases hasLength
  | plain fields => exact (List.append_nil _).symm
  | block fields =>
      rw [bytes, regionsBytes_eq_flatMap]
      rfl
  | call => rfl
  | unknown opcode body =>
      rw [Action.opcode] at hasLength
      rw [bytes, if_neg (ne_true_of_eq_false hasLength)]
      exact (List.append_nil _).symm

theorem output_writeFields (fits : Throughout (Fits context) [action]) :
    Writer.output (action.writeFields context) = .ok (action.headerBytes context) := by
  cases action with
  | plain fields =>
      rw [throughout_single (by simp)] at fits
      exact ((Plain.emits_write context fields).output_eq_ok_iff _).mpr ⟨fits.1, rfl⟩
  | block fields =>
      rw [throughout_block] at fits
      exact ((emits_writeBlockFields context fields).output_eq_ok_iff _).mpr
        ⟨⟨fits.1.2.2, fits.1.1⟩, rfl⟩
  | unknown opcode body => exact ((Writer.emits_block body).output_eq_ok_iff _).mpr ⟨trivial, rfl⟩
  | basic op => exact ((Writer.emits_pure ()).output_eq_ok_iff _).mpr ⟨trivial, rfl⟩
  | call => exact ((Writer.emits_pure ()).output_eq_ok_iff _).mpr ⟨trivial, rfl⟩

theorem length_headerBytes_le (fits : Throughout (Fits context) [action])
    (hasLength : isFixedForm action.opcode = false) :
    (action.headerBytes context).length ≤ 65535 := by
  cases action with
  | plain fields =>
      rw [throughout_single (by simp)] at fits
      rw [headerBytes, Plain.length_bytes]
      exact fits.2
  | block fields =>
      rw [throughout_block] at fits
      rw [headerBytes, Block.length_bytes, Block.headerSize_map]
      exact fits.1.2.1
  | unknown opcode body =>
      rw [throughout_single (by simp)] at fits
      exact fits.resolve_left (ne_true_of_eq_false hasLength)
  | basic op => exact Nat.zero_le _
  | call => exact Nat.zero_le _

theorem fits_regions (fits : Throughout (Fits context) [action]) :
    ∀ region ∈ action.regions,
      totalSize context region ≤ 65535 ∧ Throughout (Fits context) region := by
  cases action with
  | block fields =>
      rw [throughout_block] at fits
      intro region member
      exact ⟨fits.1.2.2 region member, fits.2 region member⟩
  | _ => exact List.forall_mem_nil _

theorem declaredSizes_headerBytes (fits : Throughout (Fits context) [action]) :
    action.declaredSizes (action.headerBytes context) =
      action.regions.map (totalSize context) := by
  cases action with
  | block fields =>
      have sizes := Block.sizesIn_bytes context
        (fields.map fun region => UInt16.ofNat (totalSize context region))
      rw [Block.kind_map, Block.regions_map] at sizes
      rw [declaredSizes, headerBytes, sizes, List.map_map, regions]
      apply List.map_congr_left
      intro region member
      have short := (fits_regions fits region member).1
      exact UInt16.toNat_ofNat_of_lt' (Nat.lt_succ_of_le short)
  | _ => rfl

theorem length_headed_regions :
    (headed action.opcode (action.headerBytes context) ++
      (action.regions.map (allBytes context)).flatten).length =
    lengthHeaderSize + (action.headerBytes context).length +
      sumOver (totalSize context) action.regions := by
  rw [List.length_append, length_headed, ← List.flatMap_def]
  congr 1
  exact length_flatMap_eq_sumOver fun region _ => length_allBytes context region

/-- An action with a length field that fits is laid out as the fields say. -/
theorem exists_laidOut (fits : Throughout (Fits context) [action])
    (hasLength : isFixedForm action.opcode = false) :
    ∃ length header regions,
      action.bytes context =
        action.opcode :: (Wire.bytesOf16 length ++ (header ++ regions.flatten)) ∧
      LaidOut context action length header regions := by
  have short := length_headerBytes_le fits hasLength
  have split := @bytes_eq_headed context action hasLength
  have declared : (UInt16.ofNat (action.headerBytes context).length).toNat =
      (action.headerBytes context).length :=
    UInt16.toNat_ofNat_of_lt' (Nat.lt_succ_of_le short)
  refine ⟨UInt16.ofNat (action.headerBytes context).length, action.headerBytes context,
    action.regions.map (allBytes context), ?_, ?_⟩
  · rw [split, headed, counted, List.cons_append, List.append_assoc]
  · constructor
    · exact output_writeFields fits
    · exact declared.symm
    · rw [List.map_map]
      apply List.map_congr_left
      intro region member
      exact (encodeAll_eq_ok_iff context region _).mpr ⟨(fits_regions fits region member).2, rfl⟩
    · rw [declaredSizes_headerBytes fits, List.map_map]
      apply List.map_congr_left
      intro region _
      exact length_allBytes context region
    · rw [declared, ← length_headed_regions, ← split, length_bytes]

theorem head?_bytes : (action.bytes context).head? = some action.opcode := by
  cases action with
  | unknown opcode body =>
      rw [bytes]
      split <;> rfl
  | _ => rfl

/-- Writing an action appends as many bytes as were computed from its fields, the bytes that the
action has alone; they begin with its opcode and are laid out as the length field and the header
say.  A failure leaves what was written before, and it is never the comparison of a header. -/
theorem write_laidOut (context : Context) (action : Action) (buffer : Buffer) :
    (∀ after, write context action buffer = .ok () after →
      ∃ written, after.toList = buffer.toList ++ written ∧
        written.length = action.size context ∧ encode context action = .ok written ∧
        written.head? = some action.opcode ∧
        (isFixedForm action.opcode = false → ∃ length header regions,
          written = action.opcode :: (Wire.bytesOf16 length ++ (header ++ regions.flatten)) ∧
          LaidOut context action length header regions)) ∧
    ∀ error after, write context action buffer = .error error after →
      buffer.toList <+: after.toList ∧
        ∀ opcode declared written, error ≠ .lengthMismatch opcode declared written := by
  have emits := emits_write context action
  constructor
  · intro after success
    obtain ⟨fits, -, rfl⟩ := (emits _ _ _).mp success
    refine ⟨action.bytes context, Buffer.toList_append .., length_bytes context action, ?_,
      head?_bytes, exists_laidOut fits⟩
    exact (emits.output_eq_ok_iff _).mpr ⟨fits, rfl⟩
  · intro error after failure
    obtain ⟨keeps, ofEncoding⟩ := (appends_write context action).of_error failure
    refine ⟨keeps, ?_⟩
    rintro opcode declared written rfl
    exact ofEncoding

/-- A function whose body opens a scope. -/
def scopedFunction (target : String) : Action :=
  .block (.defineFunction "f" ["a"] [.block (.withObject [.plain (.setTarget target)])])

/-- With a writable text the function is appended; with an interior zero it is broken off. -/
theorem write_laidOut_scopedFunction :
    (∃ after, write {} (scopedFunction "b") ⟨#[7]⟩ = .ok () after ∧
      isFixedForm (scopedFunction "b").opcode = false ∧
      ∃ length header regions, after.toList =
          [7] ++ (0x9B :: (Wire.bytesOf16 length ++ (header ++ regions.flatten))) ∧
        LaidOut {} (scopedFunction "b") length header regions) ∧
    ∃ error after, write {} (scopedFunction "\x00") ⟨#[7]⟩ = .error error after ∧
      [7] <+: after.toList := by
  have written := (write_laidOut {} (scopedFunction "b") ⟨#[7]⟩).1 _ rfl
  have broken := (write_laidOut {} (scopedFunction "\x00") ⟨#[7]⟩).2 _ _ rfl
  obtain ⟨written, appended, -, -, -, layout⟩ := written
  obtain ⟨length, header, regions, rfl, laidOut⟩ := layout rfl
  exact ⟨⟨_, rfl, rfl, length, header, regions, appended, laidOut⟩, _, _, rfl, broken.1⟩

end Action

end ActionStream
