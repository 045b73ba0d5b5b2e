import ActionStream.Proofs.Json.Ensuring
import ActionStream.Proofs.Json.Nesting

/-!
# Decoders that recover values

A computation yields a value under a condition when it succeeds exactly if the condition holds, and
then with that value.  A decoder recovers a value from a JSON value when it yields it, whatever the
number of levels, as long as the JSON value is not deeper than that and a condition of its own
holds.  The condition of a composed decoder is the conjunction of those of its parts.
-/

namespace ActionStream.Json

/-- A computation succeeds exactly if `possible` holds; it then gives `value`. -/
def Yields {ε α : Type} (run : Except ε α) (possible : Prop) (value : α) : Prop :=
  ∀ result, run = .ok result ↔ possible ∧ result = value

section Yields

variable {ε α β : Type} {run : Except ε α} {possible : Prop} {value : α}

theorem Yields.congr {other : Prop} (yields : Yields run possible value)
    (same : possible ↔ other) : Yields run other value := by
  intro result
  rw [yields result, same]

theorem yields_ok (value : α) : Yields (.ok value : Except ε α) True value := by
  intro result
  rw [Except.ok.injEq, true_and, eq_comm]

theorem yields_error (error : ε) (value : α) : Yields (.error error) False value := by
  intro result
  simp

theorem yields_iff : Yields run possible value ↔
    (possible → run = .ok value) ∧ (¬ possible → ∃ error, run = .error error) := by
  constructor
  · intro yields
    constructor
    · exact fun holds => (yields value).mpr ⟨holds, rfl⟩
    · intro fails
      cases run with
      | ok result => exact absurd ((yields result).mp rfl).1 fails
      | error error => exact ⟨error, rfl⟩
  · rintro ⟨succeeds, fails⟩ result
    by_cases holds : possible
    · rw [succeeds holds, Except.ok.injEq, eq_comm, and_iff_right holds]
    · obtain ⟨error, failure⟩ := fails holds
      simp [failure, holds]

theorem Yields.bind {nextPossible : Prop} {last : β} (first : Yields run possible value)
    (next : α → Except ε β) (second : Yields (next value) nextPossible last) :
    Yields (run >>= next) (possible ∧ nextPossible) last := by
  intro result
  rw [bind_eq_ok, and_assoc, ← second result]
  constructor
  · rintro ⟨middle, gives, goesOn⟩
    obtain ⟨holds, rfl⟩ := (first middle).mp gives
    exact ⟨holds, goesOn⟩
  · rintro ⟨holds, goesOn⟩
    exact ⟨value, (first value).mpr ⟨holds, rfl⟩, goesOn⟩

theorem Yields.map {function : α → β} (yields : Yields run possible value) :
    Yields (function <$> run) possible (function value) := by
  have composed := yields.bind (fun middle => .ok (function middle)) (yields_ok (function value))
  have same : function <$> run = run >>= fun middle => .ok (function middle) := by
    cases run <;> rfl
  rw [same]
  exact composed.congr (and_iff_left trivial)

theorem yields_mapM {values : List α} {json : α → β} {read : β → Except ε α} {possible : α → Prop}
    (each : ∀ value ∈ values, Yields (read (json value)) (possible value) value) :
    Yields ((values.map json).mapM read) (∀ value ∈ values, possible value) values := by
  induction values with
  | nil => exact (yields_ok []).congr (by simp)
  | cons value values ih =>
      rw [List.forall_mem_cons] at each
      rw [List.map_cons, List.mapM_cons]
      have composed := each.1.bind
        (fun first => (values.map json).mapM read >>= fun rest => .ok (first :: rest))
        ((ih each.2).bind _ (yields_ok (value :: values)))
      exact composed.congr (by simp)

theorem Yields.check {run : Except CodecError α} (yields : Yields run possible value) :
    Yields (Decoder.check run) possible value := by
  intro result
  rw [← yields result]
  cases run <;> simp [Decoder.check]

end Yields

/-- With no more levels than a bound, a decoder yields a value from a JSON value that is not deeper
than the levels if `possible` holds. -/
def Recovers {α : Type} (bound : Nat) (decoder : Decoder α) (json : Value) (possible : Prop)
    (value : α) : Prop :=
  ∀ levels ≤ bound, Yields (decoder levels json) (json.depth ≤ levels ∧ possible) value

section Decoders

variable {α β : Type} {bound : Nat} {decoder : Decoder α} {json content : Value} {possible : Prop}
  {value : α}

theorem Recovers.congr {other : Prop} (recovers : Recovers bound decoder json possible value)
    (same : possible ↔ other) : Recovers bound decoder json other value :=
  fun levels small => (recovers levels small).congr (and_congr_right fun _ => same)

theorem Recovers.mono {smaller : Nat} (recovers : Recovers bound decoder json possible value)
    (below : smaller ≤ bound) : Recovers smaller decoder json possible value :=
  fun levels small => recovers levels (Nat.le_trans small below)

theorem recovers_text (text : String) : Recovers bound Decoder.text (.text text) True text :=
  fun _ _ => (yields_ok text).congr (by simp [Value.depth])

theorem recovers_boolean (flag : Bool) :
    Recovers bound Decoder.boolean (.boolean flag) True flag :=
  fun _ _ => (yields_ok flag).congr (by simp [Value.depth])

theorem recovers_integer (least greatest number : Int) :
    Recovers bound (Decoder.integer least greatest) (.integer number)
      (least ≤ number ∧ number ≤ greatest) number := by
  intro levels _
  rw [Value.integer, Decoder.integer, integer?_toString, Value.depth]
  dsimp only
  by_cases inside : least ≤ number ∧ number ≤ greatest
  · rw [if_pos inside]
    exact (yields_ok number).congr (by simp [inside])
  · rw [if_neg inside]
    exact (yields_error _ number).congr (by simp [inside])

theorem Recovers.mapped (recovers : Recovers bound decoder json possible value) (wrap : α → β) :
    Recovers bound (.mapped decoder wrap) json possible (wrap value) :=
  fun levels small => (recovers levels small).map

theorem Recovers.checked {rule : α → Except CodecError β} {allowed : Prop} {result : β}
    (recovers : Recovers bound decoder json possible value)
    (ruled : Yields (rule value) allowed result) :
    Recovers bound (.checked decoder rule) json (possible ∧ allowed) result :=
  fun levels small => ((recovers levels small).bind _ ruled.check).congr (by rw [and_assoc])

theorem recovers_none (decoder : Decoder α) :
    Recovers bound (.optional decoder) .null True none :=
  fun _ _ => (yields_ok none).congr (by simp [Value.depth])

theorem Recovers.some (recovers : Recovers bound decoder json possible value)
    (present : json ≠ .null) : Recovers bound (.optional decoder) json possible (some value) := by
  intro levels small
  have same : Decoder.optional decoder levels json = .some <$> decoder levels json := by
    rw [Decoder.optional]
    exact present
  rw [same]
  exact (recovers levels small).map

theorem recovers_natural (greatest number : Nat) :
    Recovers bound (Decoder.natural greatest) (.integer number) (number ≤ greatest) number :=
  ((recovers_integer 0 greatest number).mapped Int.toNat).congr (by simp)

theorem recovers_word8 (word : UInt8) :
    Recovers bound Decoder.word8 (.integer word.toNat) True word := by
  have recovers : Recovers bound Decoder.word8 _ _ _ :=
    (recovers_natural 255 word.toNat).mapped UInt8.ofNat
  rw [UInt8.ofNat_toNat] at recovers
  exact recovers.congr (iff_true_intro (Nat.le_of_lt_succ word.toNat_lt))

theorem recovers_word16 (word : UInt16) :
    Recovers bound Decoder.word16 (.integer word.toNat) True word := by
  have recovers : Recovers bound Decoder.word16 _ _ _ :=
    (recovers_natural 65535 word.toNat).mapped UInt16.ofNat
  rw [UInt16.ofNat_toNat] at recovers
  exact recovers.congr (iff_true_intro (Nat.le_of_lt_succ word.toNat_lt))

theorem recovers_word32 (word : UInt32) :
    Recovers bound Decoder.word32 (.integer word.toNat) True word := by
  have recovers : Recovers bound Decoder.word32 _ _ _ :=
    (recovers_natural 4294967295 word.toNat).mapped UInt32.ofNat
  rw [UInt32.ofNat_toNat] at recovers
  exact recovers.congr (iff_true_intro (Nat.le_of_lt_succ word.toNat_lt))

theorem recovers_signed16 (word : Int16) :
    Recovers bound Decoder.signed16 (.integer word.toInt) True word := by
  have recovers : Recovers bound Decoder.signed16 _ _ _ :=
    (recovers_integer (-32768) 32767 word.toInt).mapped Int16.ofInt
  rw [Int16.ofInt_toInt] at recovers
  exact recovers.congr (iff_true_intro ⟨word.le_toInt, Int.le_of_lt_add_one word.toInt_lt⟩)

theorem recovers_signed32 (word : Int32) :
    Recovers bound Decoder.signed32 (.integer word.toInt) True word := by
  have recovers : Recovers bound Decoder.signed32 _ _ _ :=
    (recovers_integer (-2147483648) 2147483647 word.toInt).mapped Int32.ofInt
  rw [Int32.ofInt_toInt] at recovers
  exact recovers.congr (iff_true_intro ⟨word.le_toInt, Int.le_of_lt_add_one word.toInt_lt⟩)

/-- A list takes one level and gives its items the others. -/
theorem recovers_listOf {values : List α} {json : α → Value} {possible : α → Prop}
    (each : ∀ value ∈ values, Recovers bound decoder (json value) (possible value) value) :
    Recovers (bound + 1) (.listOf decoder) (.listOf (values.map json))
      (∀ value ∈ values, possible value) values := by
  intro levels small
  rw [Value.depth_listOf, Value.listOf]
  cases levels with
  | zero => exact (yields_error _ values).congr (by simp)
  | succ levels =>
      have items := yields_mapM fun value member =>
        each value member levels (Nat.le_of_succ_le_succ small)
      have composed := items.bind (fun values => .ok values) (yields_ok values)
      apply composed.congr
      rw [Nat.succ_le_succ_iff, itemsDepth_le_iff, List.forall_mem_map, and_true]
      exact ⟨fun both => ⟨fun value member => (both value member).1,
        fun value member => (both value member).2⟩,
        fun both value member => ⟨both.1 value member, both.2 value member⟩⟩

section Choice

variable {alone : String → Option α} {carrying : String → Option (Decoder α)} {name : String}

theorem recovers_alone (named : alone name = some value) :
    Recovers bound (.choice alone carrying) (.text name) True value := by
  intro levels _
  rw [Decoder.choice, named, Value.depth]
  exact (yields_ok value).congr (by simp)

/-- An alternative with content takes one level and gives its content the others. -/
theorem recovers_carrying (named : carrying name = some decoder)
    (recovers : Recovers bound decoder content possible value) :
    Recovers (bound + 1) (.choice alone carrying) (.objectOf [(name, content)]) possible value := by
  intro levels small
  have depth : (Value.objectOf [(name, content)]).depth = content.depth + 1 := by
    rw [Value.depth_objectOf, Json.named, List.map_singleton, membersDepth, membersDepth,
      Nat.max_zero]
  rw [depth]
  cases levels with
  | zero => exact (yields_error _ value).congr (by simp)
  | succ levels =>
      have composed := (recovers levels (Nat.le_of_succ_le_succ small)).bind
        (fun value => .ok value) (yields_ok value)
      have same : Decoder.choice alone carrying (levels + 1) (.objectOf [(name, content)]) =
          decoder levels content >>= fun value => .ok value := by
        simp only [Value.objectOf, List.map_singleton, Decoder.choice, named]
        rfl
      rw [same]
      exact composed.congr (by simp)

end Choice

end Decoders

section Records

variable {α Draft Record : Type} {bound : Nat} {decoder : Decoder α} {json : Value}
  {possible otherPossible : Prop} {value : α} {members : List (String × Value)}
  {form : FieldForm α} {rest : RecordForm Draft Record} {others : Record}

/-- The members of an object fill in a record: with no more levels than a bound they are read and
make up the given fields if `possible` holds. -/
def RecordForm.Fills (bound : Nat) (record : RecordForm Draft Record)
    (members : List (String × Value)) (possible : Prop) (fields : Record) : Prop :=
  ∀ levels ≤ bound,
    Yields (record.readMembers false levels record.initial (named members) >>= record.finish)
      (membersDepth (named members) ≤ levels ∧ possible) fields

theorem fills_done : RecordForm.done.Fills bound [] True () :=
  fun _ _ => (yields_ok ()).congr (by simp [named, membersDepth])

/-- A field that no member names is left as it is. -/
theorem readMembers_of_fresh (fresh : ∀ member ∈ members, form.name ≠ member.1) (strict : Bool)
    (levels : Nat) (read : Option α) (draft : Draft) :
    (RecordForm.field form rest).readMembers strict levels (read, draft) (named members) =
      (fun others => (read, others)) <$> rest.readMembers strict levels draft (named members) := by
  induction members generalizing draft with
  | nil => rfl
  | cons first members ih =>
      rw [List.forall_mem_cons] at fresh
      have passesOver :
          (RecordForm.field form rest).readMember levels first.1 first.2 (read, draft) =
            (rest.readMember levels first.1 first.2 draft).map
              ((fun others => (read, others)) <$> ·) := by
        simp only [RecordForm.readMember, fresh.1, if_false]
      rw [named_cons, RecordForm.readMembers, RecordForm.readMembers, passesOver]
      cases rest.readMember levels first.1 first.2 draft with
      | none =>
          cases strict with
          | true => rfl
          | false => exact ih fresh.2 draft
      | some outcome =>
          cases outcome with
          | error refusal => rfl
          | ok next => exact ih fresh.2 next

/-- The first member fills in the first field and the other members fill in the rest. -/
theorem fills_field (form : FieldForm α)
    (recovers : Recovers bound form.decoder json possible value)
    (filled : rest.Fills bound members otherPossible others)
    (fresh : ∀ member ∈ members, form.name ≠ member.1) :
    (RecordForm.field form rest).Fills bound ((form.name, json) :: members)
      (possible ∧ otherPossible) (value, others) := by
  intro levels small
  have opened :
      ((RecordForm.field form rest).readMembers false levels
          (RecordForm.field form rest).initial (named ((form.name, json) :: members)) >>=
        (RecordForm.field form rest).finish) =
      form.decoder levels json >>= fun value =>
        (rest.readMembers false levels rest.initial (named members) >>= rest.finish) >>=
          fun others => .ok (value, others) := by
    have readFirst :
        RecordForm.readMember levels form.name json (.field form rest) (none, rest.initial) =
          some ((fun value => (some value, rest.initial)) <$> form.decoder levels json) := by
      simp only [RecordForm.readMember, if_true]
    rw [named_cons, RecordForm.readMembers, RecordForm.initial, readFirst]
    cases form.decoder levels json with
    | error refusal => rfl
    | ok value =>
        change (RecordForm.field form rest).readMembers false levels (some value, rest.initial)
          (named members) >>= (RecordForm.field form rest).finish = _
        rw [readMembers_of_fresh fresh]
        cases rest.readMembers false levels rest.initial (named members) <;> rfl
  rw [opened]
  have composed := (recovers levels small).bind
    (fun value =>
      (rest.readMembers false levels rest.initial (named members) >>= rest.finish) >>=
        fun others => .ok (value, others))
    ((filled levels small).bind _ (yields_ok (value, others)))
  apply composed.congr
  rw [named_cons, membersDepth, Nat.max_le]
  tauto

theorem fills_required {name : String} (recovers : Recovers bound decoder json possible value)
    (filled : rest.Fills bound members otherPossible others)
    (fresh : ∀ member ∈ members, name ≠ member.1 := by simp) :
    (RecordForm.required name decoder rest).Fills bound ((name, json) :: members)
      (possible ∧ otherPossible) (value, others) :=
  fills_field ⟨name, decoder, none⟩ recovers filled fresh

theorem fills_defaulted {name : String} (absent : α)
    (recovers : Recovers bound decoder json possible value)
    (filled : rest.Fills bound members otherPossible others)
    (fresh : ∀ member ∈ members, name ≠ member.1 := by simp) :
    (RecordForm.defaulted name decoder absent rest).Fills bound ((name, json) :: members)
      (possible ∧ otherPossible) (value, others) :=
  fills_field ⟨name, decoder, some absent⟩ recovers filled fresh

/-- A record takes one level and gives its members the others. -/
theorem recovers_checkedRecord {record : RecordForm Draft Record} {fields : Record}
    {make : Record → Except CodecError α} {allowed : Prop}
    (filled : record.Fills bound members possible fields)
    (makes : Yields (make fields) allowed value) :
    Recovers (bound + 1) (record.decoderOf false make) (.objectOf members) (possible ∧ allowed)
      value := by
  intro levels small
  rw [Value.depth_objectOf]
  cases levels with
  | zero => exact (yields_error _ value).congr (by simp)
  | succ levels =>
      have composed := (filled levels (Nat.le_of_succ_le_succ small)).bind
        (fun fields => Decoder.check (make fields)) makes.check
      have same : record.decoderOf false make (levels + 1) (.objectOf members) =
          (record.readMembers false levels record.initial (named members) >>= record.finish) >>=
            fun fields => Decoder.check (make fields) := by
        rw [RecordForm.decoderOf, Value.objectOf, ← named, RecordForm.draft]
        cases record.readMembers false levels record.initial (named members) <;> rfl
      rw [same]
      exact composed.congr (by rw [Nat.succ_le_succ_iff, and_assoc])

theorem recovers_record {record : RecordForm Draft Record} {fields : Record}
    {make : Record → α} {condition : Prop} (filled : record.Fills bound members possible fields)
    (made : make fields = value) (same : possible ↔ condition) :
    Recovers (bound + 1) (record.decoder make) (.objectOf members) condition value := by
  subst made
  exact (recovers_checkedRecord filled (yields_ok (make fields))).congr
    ((and_iff_left trivial).trans same)

end Records

end ActionStream.Json
