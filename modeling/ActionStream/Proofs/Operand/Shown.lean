import ActionStream.Proofs.Interchange.Fields
import ActionStream.Proofs.Text.Words

/-!
# Operands as they are shown

An operand other than a text is shown as a word, and a word ends at the next comma, as a quoted text
ends at its delimiter.  The first characters of a word tell the kind of the operand, and the rest is
read back as its value, doubles apart.  Therefore the line of a push action determines its operands.
-/

namespace ActionStream

theorem RegisterIndex.isWord_text (index : RegisterIndex) : IsWord index.text :=
  .append (by decide) (isWord_natural _)

theorem TableIndex.isWord_text (index : TableIndex) : IsWord index.text :=
  .append (by decide) (isWord_natural _)

namespace Property

theorem isWord_name : ∀ name ∈ names, IsWord name := by
  decide

theorem mem_names_of_name? {known : Property} {name : String} (named : known.name? = some name) :
    name ∈ names := by
  rw [name?] at named
  split at named
  next => cases named
  next => exact List.mem_of_getElem? named

theorem isWord_text (known : Property) : IsWord known.text := by
  rw [text]
  split
  next name named => exact .append (by decide) (isWord_name name (mem_names_of_name? named))
  next => exact .append (by decide) (isWord_integer _)

/-- Every name belongs to the property whose code is its place among the names. -/
theorem ofName?_getElem : ∀ code < names.length,
    names[code]?.bind ofName? = some ⟨Int32.ofNat code⟩ := by
  decide

theorem ofName?_name? {known : Property} {name : String} (named : known.name? = some name) :
    ofName? name = some known := by
  rw [name?] at named
  split at named
  next => cases named
  next nonnegative =>
    have inRange : known.toInt.toNat < names.length := (List.getElem?_eq_some_iff.mp named).1
    have found := ofName?_getElem _ inRange
    have code : Int32.ofNat known.toInt.toNat = known.code := by
      rw [← Int32.ofInt_eq_ofNat, Int.toNat_of_nonneg (by omega)]
      exact Int32.ofInt_toInt _
    rwa [named, code] at found

end Property

namespace PushValue

/-- Every operand other than a text is shown as a word. -/
theorem text_or_isWord (value : PushValue) :
    (∃ content, value = text content) ∨ IsWord value.shown := by
  cases value with
  | text content => exact .inl ⟨content, rfl⟩
  | integer number => exact .inr (isWord_integer _)
  | double number => exact .inr number.isWord_text
  | boolean choice => cases choice <;> exact .inr (by decide)
  | null => exact .inr (by decide)
  | undefined => exact .inr (by decide)
  | register index => exact .inr index.isWord_text
  | constant index => exact .inr index.isWord_text
  | property known => exact .inr known.isWord_text
  | propertyWord word => exact .inr (.append (by decide) (isWord_hexPadded _ _ _))

/-- Reads the shown form of an operand other than a text and a double. -/
def ofWord : List Char → PushValue
  | 't' :: _ => boolean true
  | 'f' :: _ => boolean false
  | 'n' :: _ => null
  | 'u' :: _ => undefined
  | 'r' :: ':' :: digits => register ⟨UInt8.ofNat (Json.digitsValue digits)⟩
  | 'c' :: ':' :: digits => constant ⟨UInt16.ofNat (Json.digitsValue digits)⟩
  -- A name begins with an underscore and a raw word with `0x`; no code has either.
  | 'p' :: 'r' :: 'o' :: 'p' :: ':' :: '_' :: name =>
    property ((Property.ofName? (String.ofList ('_' :: name))).getD default)
  | 'p' :: 'r' :: 'o' :: 'p' :: ':' :: '0' :: 'x' :: digits =>
    propertyWord (UInt32.ofNat (Text.hexNumber digits))
  | 'p' :: 'r' :: 'o' :: 'p' :: ':' :: digits =>
    property ⟨Int32.ofInt ((Json.integer? (String.ofList digits)).getD 0)⟩
  | digits => integer (Int32.ofInt ((Json.integer? (String.ofList digits)).getD 0))

/-- The only characters of an integer are digits and a sign, so it is not taken for another kind. -/
theorem ofWord_integer (value : Int32) :
    ofWord (toString value.toInt).toList = integer value := by
  have only := sign_or_isDigit_of_mem_integer value.toInt
  rw [ofWord]
  · rw [String.ofList_toList, Json.integer?_toString, Option.getD_some, Int32.ofInt_toInt]
  all_goals
    intro rest spelled
    rw [spelled, List.forall_mem_cons] at only
    exact absurd only.1 (by decide)

theorem ofWord_register (index : RegisterIndex) : ofWord index.text.toList = register index := by
  have shape : index.text.toList = 'r' :: ':' :: Nat.toDigits 10 index.toNat := by
    rw [RegisterIndex.text, String.toList_append, toList_toString_natural]
    rfl
  rw [shape, ofWord, Json.digitsValue_toDigits, RegisterIndex.toNat, UInt8.ofNat_toNat]

theorem ofWord_constant (index : TableIndex) : ofWord index.text.toList = constant index := by
  have shape : index.text.toList = 'c' :: ':' :: Nat.toDigits 10 index.toNat := by
    rw [TableIndex.text, String.toList_append, toList_toString_natural]
    rfl
  rw [shape, ofWord, Json.digitsValue_toDigits, TableIndex.toNat, UInt16.ofNat_toNat]

theorem ofWord_property (known : Property) : ofWord known.text.toList = property known := by
  rw [Property.text]
  split
  next name named =>
    have marked : ∀ name ∈ Property.names, ∃ rest, name.toList = '_' :: rest := by
      simp [Property.names]
    obtain ⟨rest, spelled⟩ := marked name (Property.mem_names_of_name? named)
    have shape : ("prop:" ++ name).toList = 'p' :: 'r' :: 'o' :: 'p' :: ':' :: '_' :: rest := by
      rw [String.toList_append, spelled]
      rfl
    have restored : String.ofList ('_' :: rest) = name := by rw [← spelled, String.ofList_toList]
    change ofWord ("prop:" ++ name).toList = _
    rw [shape, ofWord, restored, Property.ofName?_name? named, Option.getD_some]
  next =>
    have only := sign_or_isDigit_of_mem_integer known.toInt
    have shape : ("prop:" ++ toString known.toInt).toList =
        'p' :: 'r' :: 'o' :: 'p' :: ':' :: (toString known.toInt).toList := by
      rw [String.toList_append]
      rfl
    change ofWord ("prop:" ++ toString known.toInt).toList = _
    rw [shape, ofWord]
    · rw [String.ofList_toList, Json.integer?_toString, Option.getD_some, Property.toInt,
        Int32.ofInt_toInt]
    · intro name spelled
      rw [spelled, List.forall_mem_cons] at only
      exact absurd only.1 (by decide)
    · intro digits spelled
      rw [spelled, List.forall_mem_cons, List.forall_mem_cons] at only
      exact absurd only.2.1 (by decide)

theorem ofWord_propertyWord (word : UInt32) :
    ofWord (propertyWord word).shown.toList = propertyWord word := by
  have shape : (propertyWord word).shown.toList =
      'p' :: 'r' :: 'o' :: 'p' :: ':' :: '0' :: 'x' ::
        (Text.hexPadded .upper 8 word.toNat).toList := by
    rw [shown, String.toList_append]
    rfl
  rw [shape, ofWord, Text.hexNumber_hexPadded, UInt32.ofNat_toNat]

/-- An operand other than a text and a double is read back from its shown form. -/
theorem ofWord_shown {value : PushValue} (notText : ∀ content, value ≠ text content)
    (notDouble : ¬ value.IsDouble) : ofWord value.shown.toList = value := by
  cases value with
  | text content => exact absurd rfl (notText content)
  | double number => exact absurd trivial notDouble
  | integer number => exact ofWord_integer number
  | boolean choice => cases choice <;> rfl
  | null => rfl
  | undefined => rfl
  | register index => exact ofWord_register index
  | constant index => exact ofWord_constant index
  | property known => exact ofWord_property known
  | propertyWord word => exact ofWord_propertyWord word

/-- No operand is shown as an empty text: the empty word would be read as an integer. -/
theorem shown_ne_empty {value : PushValue} (notDouble : ¬ value.IsDouble) : value.shown ≠ "" := by
  intro empty
  by_cases isText : ∃ content, value = text content
  · obtain ⟨content, rfl⟩ := isText
    have spelled := Text.toList_quoted content
    rw [← shown, empty] at spelled
    cases spelled
  · have read := ofWord_shown (not_exists.mp isText) notDouble
    rw [empty] at read
    subst read
    exact absurd empty (by decide)

end PushValue

section Lines

variable {first second : PushValue} {rest others : List Char}

/-- What may follow an operand in a line: nothing, or a comma. -/
def EndsOperand (rest : List Char) : Prop :=
  ∀ character ∈ rest.head?, character = ','

/-- A word ends at the next comma. -/
theorem IsWord.takeWhile_append {word : String} (isWord : IsWord word) (ends : EndsOperand rest) :
    (word.toList ++ rest).takeWhile (· ≠ ',') = word.toList := by
  have inside : ∀ character ∈ word.toList, decide (character ≠ ',') = true := by
    intro character member
    rw [decide_eq_true_iff]
    rintro rfl
    exact absurd (isWord _ member) (by decide)
  rw [List.takeWhile_append_of_pos inside]
  cases rest with
  | nil => simp
  | cons first rest => simp [ends first rfl]

theorem IsWord.append_inj {first second : String} (firstWord : IsWord first)
    (secondWord : IsWord second) (ends : EndsOperand rest) (endsOthers : EndsOperand others)
    (same : first.toList ++ rest = second.toList ++ others) :
    first = second ∧ rest = others := by
  have sameWord : first.toList = second.toList := by
    rw [← firstWord.takeWhile_append ends, same, secondWord.takeWhile_append endsOthers]
  rw [sameWord] at same
  exact ⟨String.toList_inj.mp sameWord, List.append_cancel_left same⟩

namespace PushValue

/-- A text is not taken for another operand: no word has a quotation mark. -/
theorem quoted_append_ne {content word : String} (isWord : IsWord word) (nonempty : word ≠ "") :
    (Text.quoted content).toList ++ rest ≠ word.toList ++ others := by
  intro same
  rw [Text.toList_quoted] at same
  cases spelled : word.toList with
  | nil => exact nonempty (String.toList_eq_nil_iff.mp spelled)
  | cons first characters =>
      rw [spelled] at same
      obtain rfl := (List.cons.inj same).1
      exact absurd (isWord '"' (by simp [spelled])) (by decide)

/-- An operand is determined by a line that begins with it, and so is what follows it. -/
theorem shown_append_inj (firstNotDouble : ¬ first.IsDouble) (secondNotDouble : ¬ second.IsDouble)
    (ends : EndsOperand rest) (endsOthers : EndsOperand others)
    (same : first.shown.toList ++ rest = second.shown.toList ++ others) :
    first = second ∧ rest = others := by
  -- Two texts are told apart by their quoted forms and two words by reading them back; a text and a
  -- word differ in their first characters.
  by_cases firstText : ∃ content, first = text content
  · obtain ⟨content, rfl⟩ := firstText
    by_cases secondText : ∃ content, second = text content
    · obtain ⟨other, rfl⟩ := secondText
      obtain ⟨rfl, sameRest⟩ := Text.quoted_append_inj.mp same
      exact ⟨rfl, sameRest⟩
    · have isWord := (text_or_isWord second).resolve_left secondText
      exact absurd same (quoted_append_ne isWord (shown_ne_empty secondNotDouble))
  · have firstWord := (text_or_isWord first).resolve_left firstText
    by_cases secondText : ∃ content, second = text content
    · obtain ⟨content, rfl⟩ := secondText
      exact absurd same.symm (quoted_append_ne firstWord (shown_ne_empty firstNotDouble))
    · have secondWord := (text_or_isWord second).resolve_left secondText
      obtain ⟨sameWord, sameRest⟩ := firstWord.append_inj secondWord ends endsOthers same
      refine ⟨?_, sameRest⟩
      rw [← ofWord_shown (not_exists.mp firstText) firstNotDouble, sameWord,
        ofWord_shown (not_exists.mp secondText) secondNotDouble]

end PushValue

/-- The characters behind the first of some items that are separated by commas. -/
def behindFirst (items : List String) : List Char :=
  items.flatMap fun item => ',' :: ' ' :: item.toList

theorem endsOperand_behindFirst (items : List String) : EndsOperand (behindFirst items) := by
  cases items <;> simp [EndsOperand, behindFirst]

theorem toList_commaSeparated_cons (first : String) (rest : List String) :
    (commaSeparated (first :: rest)).toList = first.toList ++ behindFirst rest := by
  induction rest generalizing first with
  | nil => simp [commaSeparated, behindFirst]
  | cons second rest ih =>
      rw [commaSeparated, String.intercalate_cons_cons, ← commaSeparated]
      simp [ih, behindFirst]

namespace PushValue

variable {firsts seconds : List PushValue}

theorem behindFirst_inj (noDoubleFirst : ∀ value ∈ firsts, ¬ value.IsDouble)
    (noDoubleSecond : ∀ value ∈ seconds, ¬ value.IsDouble)
    (same : behindFirst (firsts.map shown) = behindFirst (seconds.map shown)) :
    firsts = seconds := by
  induction firsts generalizing seconds with
  | nil =>
      cases seconds with
      | nil => rfl
      | cons second seconds => cases same
  | cons first firsts ih =>
      cases seconds with
      | nil => cases same
      | cons second seconds =>
          -- Behind the separator there is an operand, and then the end or another separator.
          rw [List.forall_mem_cons] at noDoubleFirst noDoubleSecond
          have behind : first.shown.toList ++ behindFirst (firsts.map shown) =
              second.shown.toList ++ behindFirst (seconds.map shown) :=
            (List.cons.inj (List.cons.inj same).2).2
          obtain ⟨rfl, sameRest⟩ := shown_append_inj noDoubleFirst.1 noDoubleSecond.1
            (endsOperand_behindFirst _) (endsOperand_behindFirst _) behind
          rw [ih noDoubleFirst.2 noDoubleSecond.2 sameRest]

/-- Only a list without operands is shown as nothing. -/
theorem commaSeparated_shown_ne_empty (notDouble : ¬ first.IsDouble) :
    commaSeparated ((first :: firsts).map shown) ≠ "" := by
  intro empty
  have spelled := toList_commaSeparated_cons first.shown (firsts.map shown)
  rw [← List.map_cons, empty] at spelled
  have none := (List.append_eq_nil_iff.mp spelled.symm).1
  exact shown_ne_empty notDouble (String.toList_eq_nil_iff.mp none)

theorem commaSeparated_shown_inj (noDoubleFirst : ∀ value ∈ firsts, ¬ value.IsDouble)
    (noDoubleSecond : ∀ value ∈ seconds, ¬ value.IsDouble)
    (same : commaSeparated (firsts.map shown) = commaSeparated (seconds.map shown)) :
    firsts = seconds := by
  cases firsts with
  | nil =>
      cases seconds with
      | nil => rfl
      | cons second seconds =>
          have notDouble := (List.forall_mem_cons.mp noDoubleSecond).1
          exact absurd same.symm (commaSeparated_shown_ne_empty notDouble)
  | cons first firsts =>
      cases seconds with
      | nil =>
          have notDouble := (List.forall_mem_cons.mp noDoubleFirst).1
          exact absurd same (commaSeparated_shown_ne_empty notDouble)
      | cons second seconds =>
          apply behindFirst_inj noDoubleFirst noDoubleSecond
          rw [List.map_cons, List.map_cons] at same ⊢
          simpa [toList_commaSeparated_cons, behindFirst] using congrArg String.toList same

end PushValue

theorem Action.text_push (values : List PushValue) :
    (Action.plain (.push values)).text =
      "Push " ++ commaSeparated (values.map PushValue.shown) := by
  unfold Action.text Plain.text
  rfl

/-- Push actions without doubles are equal if their lines are, and no two of their operands are
shown alike. -/
theorem Action.text_push_inj {firsts seconds : List PushValue}
    (noDoubleFirst : ∀ value ∈ firsts, ¬ value.IsDouble)
    (noDoubleSecond : ∀ value ∈ seconds, ¬ value.IsDouble) :
    ((Action.plain (.push firsts)).text = (Action.plain (.push seconds)).text ↔
        firsts = seconds) ∧
      ∀ first ∈ firsts, ∀ second ∈ seconds, first.shown = second.shown ↔ first = second := by
  refine ⟨⟨fun same => ?_, by rintro rfl; rfl⟩,
    fun first firstMember second secondMember => ⟨fun same => ?_, by rintro rfl; rfl⟩⟩
  · rw [Action.text_push, Action.text_push, String.append_right_inj] at same
    exact PushValue.commaSeparated_shown_inj noDoubleFirst noDoubleSecond same
  · have nothing : EndsOperand [] := nofun
    exact (PushValue.shown_append_inj (noDoubleFirst first firstMember)
      (noDoubleSecond second secondMember) nothing nothing (by rw [same])).1

/-- A text with a quotation mark and a comma in it is not taken for two operands, and the name of a
property not for its code. -/
theorem Action.text_push_inj_lookalikes :
    (∀ value ∈ [PushValue.text "a\", 7", .property ⟨1⟩], ¬ value.IsDouble) ∧
      (∀ value ∈ [PushValue.text "a", .integer 7, .propertyWord 1], ¬ value.IsDouble) ∧
      (Action.plain (.push [.text "a\", 7", .property ⟨1⟩])).text ≠
        (Action.plain (.push [.text "a", .integer 7, .propertyWord 1])).text := by
  have noDoubleFirst : ∀ value ∈ [PushValue.text "a\", 7", .property ⟨1⟩], ¬ value.IsDouble := by
    decide
  have noDoubleSecond :
      ∀ value ∈ [PushValue.text "a", .integer 7, .propertyWord 1], ¬ value.IsDouble := by
    decide
  refine ⟨noDoubleFirst, noDoubleSecond, fun same => ?_⟩
  exact absurd ((Action.text_push_inj noDoubleFirst noDoubleSecond).1.mp same) (by decide)

end Lines

end ActionStream
