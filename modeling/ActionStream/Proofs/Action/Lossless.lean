import ActionStream.Proofs.Action.Rewriting

/-!
# Streams that are encoded as they were

A decoded stream is encoded as the same bytes exactly if no action in it, at any depth, has a lossy
form.  Since nothing is ever written in more bytes than it was read from, two differences cannot
cancel out: if the whole stays the same, then so does every header and every region in it.
-/

namespace ActionStream

/-- The sizes that a header announces for regions that are given as bytes and actions. -/
abbrev announced (parts : Block (List UInt8 × List Action)) : Block UInt16 :=
  parts.map fun part => UInt16.ofNat part.1.length

/-- A region in the form of an action. -/
inductive RegionOf (context : Context) (region : List UInt8) (inner : List Action) : Form Action
  | intro {front extra : List UInt8} {parts : Block (List UInt8 × List Action)}
      (header : BlockHeader context front (announced parts))
      (regions : ∀ part ∈ parts.regions, Stream context part.1 part.2)
      (member : (region, inner) ∈ parts.regions) :
      RegionOf context region inner
        (headed parts.opcode (front ++ extra) ++ parts.regions.flatMap fun part => part.1)
        (.block (parts.map fun part => part.2))

/-- The form of an action stands in a stream, in a sequence at the top or in one that is a region at
any depth. -/
inductive Occurs (context : Context) (form : List UInt8) (action : Action) : Form (List Action)
  | here {bytes : List UInt8} {actions : List Action}
      (stands : Sequence.Stands (ActionForm context (Stream context)) form action bytes actions) :
      Occurs context form action bytes actions
  | inside {bytes outerForm region : List UInt8} {actions inner : List Action} {outer : Action}
      (stands : Sequence.Stands (ActionForm context (Stream context)) outerForm outer bytes actions)
      (regionOf : RegionOf context region inner outerForm outer)
      (occurs : Occurs context form action region inner) :
      Occurs context form action bytes actions

/-- Forms of actions that are not the written ones, whatever their regions are. -/
inductive LossyForm (context : Context) : Form Action
  /-- A frame call declares bytes. -/
  | call {body : List UInt8} (declared : body ≠ []) :
      LossyForm context (headed callOpcode body) .call
  /-- Bytes stand behind the fields of a header without regions. -/
  | plainExtra {front extra : List UInt8} {fields : Plain}
      (header : PlainHeader context front fields) (longer : extra ≠ []) :
      LossyForm context (headed fields.opcode (front ++ extra)) (.plain fields)
  /-- The fields of a header without regions are lossy. -/
  | plainFields {front extra : List UInt8} {fields : Plain}
      (header : PlainHeader context front fields) (lossy : LossyPlain context front fields) :
      LossyForm context (headed fields.opcode (front ++ extra)) (.plain fields)
  /-- Bytes stand behind the fields of a header with regions. -/
  | blockExtra {front extra : List UInt8} {parts : Block (List UInt8 × List Action)}
      (header : BlockHeader context front (announced parts))
      (regions : ∀ part ∈ parts.regions, Stream context part.1 part.2) (longer : extra ≠ []) :
      LossyForm context
        (headed parts.opcode (front ++ extra) ++ parts.regions.flatMap fun part => part.1)
        (.block (parts.map fun part => part.2))
  /-- The fields of a header with regions are lossy. -/
  | blockFields {front extra : List UInt8} {parts : Block (List UInt8 × List Action)}
      (header : BlockHeader context front (announced parts))
      (regions : ∀ part ∈ parts.regions, Stream context part.1 part.2)
      (lossy : LossyBlock front (announced parts)) :
      LossyForm context
        (headed parts.opcode (front ++ extra) ++ parts.regions.flatMap fun part => part.1)
        (.block (parts.map fun part => part.2))

theorem headed_injective {opcode : UInt8} {first second : List UInt8}
    (same : headed opcode first = headed opcode second) : first = second := by
  have lengths : (Wire.bytesOf16 (UInt16.ofNat first.length)).length =
      (Wire.bytesOf16 (UInt16.ofNat second.length)).length := rfl
  exact (List.append_inj (List.cons.inj same).2 lengths).2

namespace Action

variable {context : Context}

/-- Fields without regions are written as their header if nothing stands behind them and they are
not lossy. -/
theorem bytes_plain_eq_iff {front extra : List UInt8} {fields : Plain}
    (header : PlainHeader context front fields) :
    (plain fields).bytes context = headed fields.opcode (front ++ extra) ↔
      extra = [] ∧ ¬ LossyPlain context front fields := by
  rw [← header.bytes_eq_iff, bytes]
  constructor
  · intro same
    have sameHeader : fields.bytes context ++ [] = front ++ extra := by
      rw [List.append_nil]
      exact headed_injective same
    have parts := append_eq_append_of_length_le sameHeader header.length_bytes_le (Nat.zero_le _)
    exact ⟨parts.2.symm, parts.1⟩
  · rintro ⟨rfl, same⟩
    rw [List.append_nil, same]

/-- Fields with regions are written as their form if nothing stands behind them, they are not lossy
and every region is written as it is. -/
theorem bytes_block_eq_iff {front extra : List UInt8} {parts : Block (List UInt8 × List Action)}
    (header : BlockHeader context front (announced parts))
    (regions : ∀ part ∈ parts.regions, Stream context part.1 part.2) :
    (block (parts.map fun part => part.2)).bytes context =
        headed parts.opcode (front ++ extra) ++ (parts.regions.flatMap fun part => part.1) ↔
      extra = [] ∧ ¬ LossyBlock front (announced parts) ∧
        ∀ part ∈ parts.regions, allBytes context part.2 = part.1 := by
  have shrinks : ∀ part ∈ parts.regions, (allBytes context part.2).length ≤ part.1.length := by
    intro part member
    rw [length_allBytes]
    exact (regions part member).totalSize_le
  -- Where the regions are written as they are, the sizes that are announced are the same.
  have sizes (same : ∀ part ∈ parts.regions, allBytes context part.2 = part.1) :
      (parts.map fun part => part.2).map (fun region => UInt16.ofNat (totalSize context region)) =
        announced parts := by
    rw [Block.map_map]
    refine Block.map_congr _ _ fun part member => ?_
    rw [← length_allBytes, same part member]
  rw [bytes, Block.opcode_map, regionsBytes_eq_flatMap, Block.regions_map, List.flatMap_map]
  constructor
  · intro same
    have headerLength := header.length_bytes
    rw [Block.length_bytes, Block.headerSize_map] at headerLength
    have headerBound : (headed parts.opcode (Block.bytes context ((parts.map fun part => part.2).map
        fun region => UInt16.ofNat (totalSize context region)))).length ≤
          (headed parts.opcode (front ++ extra)).length := by
      rw [length_headed, length_headed, Block.length_bytes, Block.headerSize_map,
        Block.headerSize_map, List.length_append]
      omega
    obtain ⟨sameHeader, sameRegions⟩ := append_eq_append_of_length_le same headerBound
      (length_flatMap_le_length_flatMap shrinks)
    have eachRegion := (flatMap_eq_flatMap_iff shrinks).mp sameRegions
    rw [sizes eachRegion] at sameHeader
    have sameFields : Block.bytes context (announced parts) ++ [] = front ++ extra := by
      rw [List.append_nil]
      exact headed_injective sameHeader
    obtain ⟨sameFront, nothingLeft⟩ := append_eq_append_of_length_le sameFields
      (Nat.le_of_eq header.length_bytes) (Nat.zero_le _)
    exact ⟨nothingLeft.symm, header.bytes_eq_iff.mp sameFront, eachRegion⟩
  · rintro ⟨rfl, kept, eachRegion⟩
    rw [sizes eachRegion, header.bytes_eq_iff.mpr kept, List.append_nil,
      (flatMap_eq_flatMap_iff shrinks).mpr eachRegion]

end Action

namespace LossyForm

variable {context : Context} {form : List UInt8} {action : Action}

/-- A lossy form is never the written one. -/
theorem bytes_ne (lossy : LossyForm context form action) : action.bytes context ≠ form := by
  intro same
  cases lossy with
  | call declared => exact declared (headed_injective same).symm
  | plainExtra header longer => exact longer ((Action.bytes_plain_eq_iff header).mp same).1
  | plainFields header lossy => exact ((Action.bytes_plain_eq_iff header).mp same).2 lossy
  | blockExtra header regions longer =>
      exact longer ((Action.bytes_block_eq_iff header regions).mp same).1
  | blockFields header regions lossy =>
      exact ((Action.bytes_block_eq_iff header regions).mp same).2.1 lossy

end LossyForm

namespace Occurs

variable {context : Context} {form bytes : List UInt8} {action : Action} {actions : List Action}

/-- In a stream that is written as it is, so is every form in it. -/
theorem bytes_eq (occurs : Occurs context form action bytes actions)
    (same : Action.allBytes context actions = bytes) : action.bytes context = form := by
  have shrinks : ∀ front action, ActionForm context (Stream context) front action →
      (Action.bytes context action).length ≤ front.length := by
    intro front action form
    rw [Action.length_bytes]
    exact form.size_le fun _ _ => Stream.totalSize_le
  induction occurs with
  | here stands =>
      rw [Action.allBytes_eq_flatMap] at same
      exact stands.write_eq shrinks same
  | inside stands regionOf occurs ih =>
      rw [Action.allBytes_eq_flatMap] at same
      have outerSame := stands.write_eq shrinks same
      cases regionOf with
      | intro header regions member =>
          exact ih (((Action.bytes_block_eq_iff header regions).mp outerSame).2.2 _ member)

end Occurs

namespace Stream

variable {context : Context} {bytes : List UInt8} {actions : List Action}

/-- A stream without lossy forms is written as it is. -/
theorem allBytes_eq (stream : Stream context bytes actions)
    (kept : ∀ form action, Occurs context form action bytes actions →
      ¬ LossyForm context form action) :
    Action.allBytes context actions = bytes := by
  refine Stream.induction (motive := fun bytes actions =>
    (∀ form action, Occurs context form action bytes actions → ¬ LossyForm context form action) →
      Action.allBytes context actions = bytes) (fun bytes actions sequence kept => ?_) stream kept
  rw [Action.allBytes_eq_flatMap]
  refine sequence.flatMap_eq fun front action stands => ?_
  have standsAsStream : Sequence.Stands (ActionForm context (Stream context)) front action bytes
      actions := stands.mono fun _ _ form => form.mono fun _ _ both => both.1
  have notLossy := kept front action (.here standsAsStream)
  cases stands.form_of with
  | basic op => rfl
  | gap allowed small unlisted => simp [Action.bytes, isFixedForm_iff.mpr small]
  | plain header filled short =>
      rw [Action.bytes_plain_eq_iff header]
      exact ⟨not_not.mp fun longer => notLossy (.plainExtra header longer),
        fun lossy => notLossy (.plainFields header lossy)⟩
  | block header filled short sized regions =>
      have streams := fun part member => (regions part member).1
      rw [Action.bytes_block_eq_iff header streams]
      refine ⟨not_not.mp fun longer => notLossy (.blockExtra header streams longer),
        fun lossy => notLossy (.blockFields header streams lossy), fun part member => ?_⟩
      exact (regions part member).2 fun form action occurs =>
        kept form action (.inside standsAsStream (.intro header streams member) occurs)
  | call short =>
      have empty := not_not.mp fun declared => notLossy (.call declared)
      rw [empty, Action.bytes]
  | unknown large unlisted short => simp [Action.bytes, isFixedForm_eq_false_iff.mpr large]

end Stream

namespace Action

/-- A decoded stream is encoded as the same bytes exactly if no action in it, at any depth, has a
lossy form. -/
theorem encodeAll_eq_source_iff {context : Context} {bytes : List UInt8} {actions : List Action}
    (decoded : decodeAll context bytes = .ok actions) :
    encodeAll context actions = .ok bytes ↔
      ∀ form action, Occurs context form action bytes actions →
        ¬ LossyForm context form action := by
  obtain ⟨stream, -⟩ := stream_of_decodeAll decoded
  rw [encodeAll_eq_ok_iff]
  constructor
  · rintro ⟨-, same⟩ form action occurs lossy
    exact lossy.bytes_ne (occurs.bytes_eq same.symm)
  · intro kept
    exact ⟨fun action member => (stream.readable action member).1, (stream.allBytes_eq kept).symm⟩

/-- A region in which a truth value is the byte two and a frame call declares a byte. -/
def wastefulRegionBytes : List UInt8 :=
  [0x94, 2, 0, 9, 0, 0x96, 2, 0, 5, 2, 0x9E, 1, 0, 7]

/-- The actions of the region, and the action that it belongs to. -/
def wastefulRegion : List Action :=
  [.block (.withObject [.plain (.push [.boolean true]), .call])]

theorem exists_lossyForm_wastefulRegion :
    decodeAll {} wastefulRegionBytes = .ok wastefulRegion ∧
      ∃ form action, Occurs {} form action wastefulRegionBytes wastefulRegion ∧
        LossyForm {} form action := by
  have decoded : decodeAll {} wastefulRegionBytes = .ok wastefulRegion := rfl
  have changes : encodeAll {} wastefulRegion ≠ .ok wastefulRegionBytes := by decide
  refine ⟨decoded, ?_⟩
  simpa using mt (encodeAll_eq_source_iff decoded).mpr changes

end Action

end ActionStream
