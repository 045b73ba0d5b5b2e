import ActionStream.Proofs.Json.Lexing

/-!
# Values as text

A value that is written has all its parts: its lists and objects are closed, its members have names
and its numbers are integers.  The compact and the indented form of such a value differ only in
their blanks, and both are read as the lexemes of the value.
-/

namespace ActionStream.Json

/-- A value without a part that is missing or that is no integer where a number stands. -/
inductive Value.Whole : Value → Prop
  | null : Whole .null
  | boolean (value : Bool) : Whole (.boolean value)
  | integer (value : Int) : Whole (.integer value)
  | text (value : String) : Whole (.text value)
  | list {items : List Value} (each : ∀ item ∈ items, Whole item) : Whole (.listOf items)
  | object {members : List (String × Value)} (each : ∀ member ∈ members, Whole member.2) :
    Whole (.objectOf members)

mutual

/-- The lexemes of a value. -/
def Value.lexemes : Value → List Lexeme
  | .null => [.null]
  | .boolean value => [.boolean value]
  | .number literal => [.number literal]
  | .text value => [.text value]
  | .looseText => [.looseText]
  | .list [] _ => [.openList] ++ [.closeList]
  | .list (first :: rest) _ =>
    [.openList] ++ (first.lexemes ++ (laterItemLexemes rest ++ [.closeList]))
  | .object [] _ => [.openObject] ++ [.closeObject]
  | .object ((name, value) :: rest) _ =>
    [.openObject] ++ ([.text (name.getD "")] ++ ([.colon] ++
      (value.lexemes ++ (laterMemberLexemes rest ++ [.closeObject]))))
  | .broken => []

/-- The lexemes of the items of a list from the second one on. -/
def laterItemLexemes : List Value → List Lexeme
  | [] => []
  | first :: rest => [.comma] ++ (first.lexemes ++ laterItemLexemes rest)

/-- The lexemes of the members of an object from the second one on. -/
def laterMemberLexemes : List (Option String × Value) → List Lexeme
  | [] => []
  | (name, value) :: rest =>
    [.comma] ++ ([.text (name.getD "")] ++ ([.colon] ++
      (value.lexemes ++ laterMemberLexemes rest)))

end

/-- The blanks of a written form: in front of what stands on a line of its own at a depth, and
between the name of a member and its value. -/
structure Spacing where
  lineBreak : Nat → List Char
  beforeValue : List Char
  blank_lineBreak : ∀ depth, ∀ character ∈ lineBreak depth, Lexeme.isBlank character = true
  blank_beforeValue : ∀ character ∈ beforeValue, Lexeme.isBlank character = true

namespace Spacing

def none : Spacing where
  lineBreak _ := []
  beforeValue := []
  blank_lineBreak _ := List.forall_mem_nil _
  blank_beforeValue := List.forall_mem_nil _

theorem toList_pushn (text : String) (character : Char) (count : Nat) :
    (text.pushn character count).toList = text.toList ++ List.replicate count character := by
  rw [String.pushn_eq_repeat_push]
  induction count with
  | zero => simp [Nat.repeat]
  | succ count ih =>
      rw [Nat.repeat, String.toList_push, ih, List.append_assoc, List.replicate_succ']

theorem toList_lineBreak (depth : Nat) :
    (Json.lineBreak depth).toList = '\n' :: List.replicate (2 * depth) ' ' := by
  rw [Json.lineBreak, toList_pushn]
  rfl

def lines : Spacing where
  lineBreak depth := (Json.lineBreak depth).toList
  beforeValue := [' ']
  blank_lineBreak depth := by
    intro character member
    rw [toList_lineBreak, List.mem_cons, List.mem_replicate] at member
    rcases member with rfl | ⟨-, rfl⟩ <;> rfl
  blank_beforeValue := List.forall_mem_singleton.mpr rfl

end Spacing

section Characters

variable (spacing : Spacing)

mutual

/-- The written form of a value at a depth. -/
def Value.characters (depth : Nat) : Value → List Char
  | .null => "null".toList
  | .boolean value => (if value then "true" else "false").toList
  | .number literal => literal.toList
  | .text value => (writtenText value).toList
  | .list [] _ => ['['] ++ [']']
  | .list (first :: rest) _ =>
    ['['] ++ (spacing.lineBreak (depth + 1) ++ (first.characters (depth + 1) ++
      (laterItemCharacters (depth + 1) rest ++ (spacing.lineBreak depth ++ [']']))))
  | .object [] _ => ['\x7b'] ++ ['\x7d']
  | .object ((name, value) :: rest) _ =>
    ['\x7b'] ++ (spacing.lineBreak (depth + 1) ++ ((writtenName name).toList ++ ([':'] ++
      (spacing.beforeValue ++ (value.characters (depth + 1) ++
        (laterMemberCharacters (depth + 1) rest ++ (spacing.lineBreak depth ++ ['\x7d'])))))))
  | .looseText | .broken => []

/-- The written form of the items of a list from the second one on. -/
def laterItemCharacters (depth : Nat) : List Value → List Char
  | [] => []
  | first :: rest =>
    [','] ++ (spacing.lineBreak depth ++ (first.characters depth ++
      laterItemCharacters depth rest))

/-- The written form of the members of an object from the second one on. -/
def laterMemberCharacters (depth : Nat) : List (Option String × Value) → List Char
  | [] => []
  | (name, value) :: rest =>
    [','] ++ (spacing.lineBreak depth ++ ((writtenName name).toList ++ ([':'] ++
      (spacing.beforeValue ++ (value.characters depth ++ laterMemberCharacters depth rest)))))

end

end Characters

section Forms

variable {items : List Value} {members : List (String × Value)}

/-- The members of an object as they are kept in a value. -/
def named (members : List (String × Value)) : List (Option String × Value) :=
  members.map fun (name, value) => (some name, value)

theorem named_cons (first : String × Value) (rest : List (String × Value)) :
    named (first :: rest) = (some first.1, first.2) :: named rest :=
  rfl

theorem toList_compactItems
    (each : ∀ item ∈ items, ∀ depth written,
      (compactOnto written item).toList = written.toList ++ item.characters .none depth)
    (depth : Nat) (written : String) :
    (compactItems written "," items).toList =
      written.toList ++ laterItemCharacters .none depth items := by
  induction items generalizing written with
  | nil => rw [compactItems, laterItemCharacters, List.append_nil]
  | cons first rest ih =>
      rw [List.forall_mem_cons] at each
      rw [compactItems, ih each.2, each.1 depth, laterItemCharacters]
      simp [Spacing.none]

theorem toList_compactMembers
    (each : ∀ member ∈ members, ∀ depth written,
      (compactOnto written member.2).toList = written.toList ++ member.2.characters .none depth)
    (depth : Nat) (written : String) :
    (compactMembers written "," (named members)).toList =
      written.toList ++ laterMemberCharacters .none depth (named members) := by
  induction members generalizing written with
  | nil => rw [named, List.map_nil, compactMembers, laterMemberCharacters, List.append_nil]
  | cons first rest ih =>
      rw [List.forall_mem_cons] at each
      rw [named_cons, compactMembers, ih each.2, each.1 depth,
        laterMemberCharacters]
      simp [Spacing.none]

/-- The compact form has no blanks. -/
theorem toList_compactOnto {value : Value} (whole : value.Whole) (depth : Nat) (written : String) :
    (compactOnto written value).toList = written.toList ++ value.characters .none depth := by
  induction whole generalizing depth written with
  | null => simp [compactOnto, Value.characters]
  | boolean value => simp [compactOnto, Value.characters]
  | integer value => simp [compactOnto, Value.integer, Value.characters]
  | text value => simp [compactOnto, Value.characters]
  | @list items _ ih =>
      rw [Value.listOf, compactOnto, String.toList_append]
      cases items with
      | nil => simp [compactItems, Value.characters]
      | cons first rest =>
          rw [List.forall_mem_cons] at ih
          rw [compactItems, toList_compactItems ih.2 (depth + 1), ih.1 (depth + 1),
            Value.characters]
          simp [Spacing.none]
  | @object members _ ih =>
      rw [Value.objectOf, ← named, compactOnto, String.toList_append]
      cases members with
      | nil => simp [named, compactMembers, Value.characters]
      | cons first rest =>
          rw [List.forall_mem_cons] at ih
          rw [named_cons, compactMembers,
            toList_compactMembers ih.2 (depth + 1), ih.1 (depth + 1), Value.characters]
          simp [Spacing.none]

theorem toList_indentedItems
    (each : ∀ item ∈ items, ∀ depth written,
      (indentedOnto depth written item).toList = written.toList ++ item.characters .lines depth)
    (depth : Nat) (written : String) :
    (indentedItems depth written items).toList =
      written.toList ++ laterItemCharacters .lines depth items := by
  induction items generalizing written with
  | nil => rw [indentedItems, laterItemCharacters, List.append_nil]
  | cons first rest ih =>
      rw [List.forall_mem_cons] at each
      rw [indentedItems, ih each.2, each.1 depth, laterItemCharacters]
      simp [Spacing.lines]

theorem toList_indentedMembers
    (each : ∀ member ∈ members, ∀ depth written,
      (indentedOnto depth written member.2).toList =
        written.toList ++ member.2.characters .lines depth)
    (depth : Nat) (written : String) :
    (indentedMembers depth written (named members)).toList =
      written.toList ++ laterMemberCharacters .lines depth (named members) := by
  induction members generalizing written with
  | nil => rw [named, List.map_nil, indentedMembers, laterMemberCharacters, List.append_nil]
  | cons first rest ih =>
      rw [List.forall_mem_cons] at each
      rw [named_cons, indentedMembers, ih each.2, each.1 depth,
        laterMemberCharacters]
      simp [Spacing.lines]

/-- The indented form has every item and every member on a line of its own. -/
theorem toList_indentedOnto {value : Value} (whole : value.Whole) (depth : Nat)
    (written : String) :
    (indentedOnto depth written value).toList =
      written.toList ++ value.characters .lines depth := by
  induction whole generalizing depth written with
  | null => simp [indentedOnto, Value.characters]
  | boolean value => simp [indentedOnto, Value.characters]
  | integer value => simp [indentedOnto, Value.integer, Value.characters]
  | text value => simp [indentedOnto, Value.characters]
  | @list items _ ih =>
      cases items with
      | nil => simp [Value.listOf, indentedOnto, Value.characters]
      | cons first rest =>
          rw [List.forall_mem_cons] at ih
          rw [Value.listOf, indentedOnto, String.toList_append, String.toList_append,
            toList_indentedItems ih.2, ih.1 (depth + 1), Value.characters]
          simp [Spacing.lines]
  | @object members _ ih =>
      cases members with
      | nil => simp [Value.objectOf, indentedOnto, Value.characters]
      | cons first rest =>
          rw [List.forall_mem_cons] at ih
          rw [Value.objectOf, ← named, named_cons, indentedOnto,
            String.toList_append, String.toList_append, toList_indentedMembers ih.2,
            ih.1 (depth + 1), Value.characters]
          simp [Spacing.lines]

end Forms

section Reading

open Lexeme

/-- The written form of a value is read as the lexemes of the value wherever a number would end. -/
def Value.Legible (spacing : Spacing) (value : Value) : Prop :=
  ∀ depth rest, EndsNumber rest → Reads (value.characters spacing depth) value.lexemes rest

variable {spacing : Spacing} {items : List Value} {members : List (String × Value)}
  {following rest : List Char} {others : List Lexeme}

theorem reads_lineBreak (depth : Nat) : Reads (spacing.lineBreak depth) [] rest :=
  reads_blanks (spacing.blank_lineBreak depth)

theorem endsNumber_close (depth : Nat) {close : Char}
    (other : close.isDigit = false ∧ close ≠ '.' ∧ close ≠ 'e' ∧ close ≠ 'E') :
    EndsNumber (spacing.lineBreak depth ++ [close] ++ rest) := by
  rw [List.append_assoc]
  exact endsNumber_blanks (spacing.blank_lineBreak depth) (endsNumber_cons rest other)

/-- A comma or what follows the items is next. -/
theorem endsNumber_laterItems (depth : Nat) (ends : EndsNumber (following ++ rest)) :
    EndsNumber (laterItemCharacters spacing depth items ++ following ++ rest) := by
  rw [List.append_assoc]
  cases items with
  | nil => exact ends
  | cons first items =>
      rw [laterItemCharacters]
      exact endsNumber_cons _ (by decide)

theorem endsNumber_laterMembers (depth : Nat) (ends : EndsNumber (following ++ rest)) :
    EndsNumber (laterMemberCharacters spacing depth (named members) ++ following ++ rest) := by
  rw [List.append_assoc]
  cases members with
  | nil => exact ends
  | cons first members =>
      rw [named_cons, laterMemberCharacters]
      exact endsNumber_cons _ (by decide)

theorem reads_laterItems (legible : ∀ item ∈ items, item.Legible spacing) (depth : Nat)
    (ends : EndsNumber (following ++ rest)) (followed : Reads following others rest) :
    Reads (laterItemCharacters spacing depth items ++ following) (laterItemLexemes items ++ others)
      rest := by
  induction items with
  | nil =>
      rw [laterItemCharacters, laterItemLexemes]
      exact followed
  | cons first items ih =>
      rw [List.forall_mem_cons] at legible
      rw [laterItemCharacters, laterItemLexemes]
      simp only [List.append_assoc]
      apply (reads_comma _).append
      apply (reads_lineBreak depth).append
      apply (legible.1 depth _ (endsNumber_laterItems depth ends)).append
      exact ih legible.2

/-- The name of a member and its value are read in front of what ends a number. -/
theorem reads_member {name : String} {value : Value} (legible : value.Legible spacing)
    (depth : Nat) (ends : EndsNumber (following ++ rest)) (followed : Reads following others rest) :
    Reads ((writtenName (some name)).toList ++ ([':'] ++
        (spacing.beforeValue ++ (value.characters spacing depth ++ following))))
      ([.text name] ++ ([.colon] ++ (value.lexemes ++ others))) rest := by
  apply (reads_text name _).append
  apply (reads_colon _).append
  apply (reads_blanks spacing.blank_beforeValue).append
  exact (legible depth _ ends).append followed

theorem reads_laterMembers (legible : ∀ member ∈ members, member.2.Legible spacing) (depth : Nat)
    (ends : EndsNumber (following ++ rest)) (followed : Reads following others rest) :
    Reads (laterMemberCharacters spacing depth (named members) ++ following)
      (laterMemberLexemes (named members) ++ others) rest := by
  induction members with
  | nil =>
      rw [named, List.map_nil, laterMemberCharacters, laterMemberLexemes]
      exact followed
  | cons first members ih =>
      rw [List.forall_mem_cons] at legible
      rw [named_cons, laterMemberCharacters, laterMemberLexemes]
      simp only [List.append_assoc]
      apply (reads_comma _).append
      apply (reads_lineBreak depth).append
      apply reads_member legible.1 depth (endsNumber_laterMembers depth ends)
      exact ih legible.2

/-- Whatever is whole is legible in every written form. -/
theorem Value.Whole.legible {value : Value} (whole : value.Whole) : value.Legible spacing := by
  induction whole with
  | null => exact fun _ rest _ => reads_null rest
  | boolean value => exact fun _ rest _ => reads_boolean rest value
  | integer value => exact fun _ _ ends => reads_integer value ends
  | text value => exact fun _ rest _ => reads_text value rest
  | @list items _ ih =>
      intro depth rest _
      cases items with
      | nil => exact (reads_openList _).append (reads_closeList rest)
      | cons first items =>
          rw [List.forall_mem_cons] at ih
          have ends : EndsNumber (spacing.lineBreak depth ++ [']'] ++ rest) :=
            endsNumber_close depth (by decide)
          have close : Reads (spacing.lineBreak depth ++ [']']) [.closeList] rest :=
            (reads_lineBreak depth).append (reads_closeList rest)
          rw [Value.listOf, characters, lexemes]
          apply (reads_openList _).append
          apply (reads_lineBreak (depth + 1)).append
          apply (ih.1 (depth + 1) _ (endsNumber_laterItems (depth + 1) ends)).append
          exact reads_laterItems ih.2 (depth + 1) ends close
  | @object members _ ih =>
      intro depth rest _
      cases members with
      | nil => exact (reads_openObject _).append (reads_closeObject rest)
      | cons first members =>
          rw [List.forall_mem_cons] at ih
          have ends : EndsNumber (spacing.lineBreak depth ++ ['\x7d'] ++ rest) :=
            endsNumber_close depth (by decide)
          have close : Reads (spacing.lineBreak depth ++ ['\x7d']) [.closeObject] rest :=
            (reads_lineBreak depth).append (reads_closeObject rest)
          rw [Value.objectOf, ← named, named_cons, characters, lexemes]
          apply (reads_openObject _).append
          apply (reads_lineBreak (depth + 1)).append
          apply reads_member ih.1 (depth + 1) (endsNumber_laterMembers (depth + 1) ends)
          exact reads_laterMembers ih.2 (depth + 1) ends close

theorem lexemes_characters {value : Value} (whole : value.Whole) (depth : Nat) :
    Json.lexemes (value.characters spacing depth) = value.lexemes :=
  (whole.legible depth [] endsNumber_nil).lexemes

end Reading

/-- The compact and the indented form of a value. -/
def Value.writtenForms (value : Value) : List String :=
  [compact value, indented value]

/-- Both written forms of a value have the lexemes of the value. -/
theorem lexemes_of_mem_writtenForms {value : Value} (whole : value.Whole) {text : String}
    (written : text ∈ value.writtenForms) : lexemes text.toList = value.lexemes := by
  simp only [Value.writtenForms, List.mem_cons, List.not_mem_nil, or_false] at written
  rcases written with rfl | rfl
  · rw [compact, toList_compactOnto whole 0, String.toList_empty, List.nil_append]
    exact lexemes_characters whole 0
  · rw [indented, toList_indentedOnto whole, String.toList_empty, List.nil_append]
    exact lexemes_characters whole 0

end ActionStream.Json
