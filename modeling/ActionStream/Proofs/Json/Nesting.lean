import ActionStream.Json.Document
import ActionStream.Proofs.Json.Spelling

/-!
# Reading the lexemes of a value

The machine that reads documents takes the lexemes of a value as that value, whatever is open around
it and whatever follows.  While it does so the number of open lists and objects goes up by the depth
of the value, so the greatest number of them that is open at a time in a text is the depth of what
the text was written for.
-/

namespace ActionStream.Json

mutual

/-- The number of lists and objects inside each other in a value, itself included. -/
def Value.depth : Value → Nat
  | .list items _ => itemsDepth items + 1
  | .object members _ => membersDepth members + 1
  | .null | .boolean _ | .number _ | .text _ | .looseText | .broken => 0

def itemsDepth : List Value → Nat
  | [] => 0
  | first :: rest => max first.depth (itemsDepth rest)

def membersDepth : List (Option String × Value) → Nat
  | [] => 0
  | (_, value) :: rest => max value.depth (membersDepth rest)

end

section Depth

variable {levels : Nat}

theorem itemsDepth_le_iff {items : List Value} :
    itemsDepth items ≤ levels ↔ ∀ item ∈ items, item.depth ≤ levels := by
  induction items with
  | nil => simp [itemsDepth]
  | cons first rest ih => rw [itemsDepth, Nat.max_le, ih, List.forall_mem_cons]

theorem Value.depth_listOf (items : List Value) :
    (Value.listOf items).depth = itemsDepth items + 1 := by
  rw [listOf, depth]

theorem Value.depth_objectOf (members : List (String × Value)) :
    (Value.objectOf members).depth = membersDepth (named members) + 1 := by
  rw [objectOf, depth, named]

end Depth

section Counting

/-- The number of open lists and objects behind a lexeme. -/
def Lexeme.openAfter (opened : Nat) : Lexeme → Nat
  | openList | openObject => opened + 1
  | closeList | closeObject => opened - 1
  | _ => opened

/-- The greatest number of lists and objects open at a time, some of them open at the start. -/
def mostOpenFrom (opened : Nat) : List Lexeme → Nat
  | [] => opened
  | lexeme :: rest => max opened (mostOpenFrom (lexeme.openAfter opened) rest)

/-- The greatest number of lists and objects that are open at a time in a text. -/
def mostOpen (text : String) : Nat :=
  mostOpenFrom 0 (lexemes text.toList)

theorem le_mostOpenFrom (opened : Nat) (found : List Lexeme) :
    opened ≤ mostOpenFrom opened found := by
  cases found with
  | nil => exact Nat.le_refl opened
  | cons lexeme rest => exact Nat.le_max_left ..

/-- A lexeme that opens and closes nothing is passed over. -/
theorem mostOpenFrom_cons_of_level {opened : Nat} {lexeme : Lexeme} (rest : List Lexeme)
    (level : lexeme.openAfter opened = opened) :
    mostOpenFrom opened (lexeme :: rest) = mostOpenFrom opened rest := by
  rw [mostOpenFrom, level, Nat.max_eq_right (le_mostOpenFrom opened rest)]

theorem mostOpenFrom_cons_of_opening {opened : Nat} {lexeme : Lexeme} (rest : List Lexeme)
    (opening : lexeme.openAfter opened = opened + 1) :
    mostOpenFrom opened (lexeme :: rest) = mostOpenFrom (opened + 1) rest := by
  have inside := le_mostOpenFrom (opened + 1) rest
  rw [mostOpenFrom, opening, Nat.max_eq_right (by omega)]

theorem mostOpenFrom_cons_of_closing {opened : Nat} {lexeme : Lexeme} (rest : List Lexeme)
    (closing : lexeme.openAfter (opened + 1) = opened) :
    mostOpenFrom (opened + 1) (lexeme :: rest) = max (opened + 1) (mostOpenFrom opened rest) := by
  rw [mostOpenFrom, closing]

/-- Within the lexemes of a value its depth is added to what is open around it. -/
def Value.OpensDepth (value : Value) : Prop :=
  ∀ opened rest, mostOpenFrom opened (value.lexemes ++ rest) =
    max (opened + value.depth) (mostOpenFrom opened rest)

theorem mostOpenFrom_laterItems {items : List Value} (opens : ∀ item ∈ items, item.OpensDepth)
    (opened : Nat) (rest : List Lexeme) :
    mostOpenFrom opened (laterItemLexemes items ++ rest) =
      max (opened + itemsDepth items) (mostOpenFrom opened rest) := by
  induction items with
  | nil => exact (Nat.max_eq_right (le_mostOpenFrom opened rest)).symm
  | cons first items ih =>
      rw [List.forall_mem_cons] at opens
      simp only [laterItemLexemes, itemsDepth, List.append_assoc, List.cons_append,
        List.nil_append]
      rw [mostOpenFrom_cons_of_level _ (by rfl), opens.1, ih opens.2]
      omega

theorem mostOpenFrom_laterMembers {members : List (String × Value)}
    (opens : ∀ member ∈ members, member.2.OpensDepth) (opened : Nat) (rest : List Lexeme) :
    mostOpenFrom opened (laterMemberLexemes (named members) ++ rest) =
      max (opened + membersDepth (named members)) (mostOpenFrom opened rest) := by
  induction members with
  | nil => exact (Nat.max_eq_right (le_mostOpenFrom opened rest)).symm
  | cons first members ih =>
      rw [List.forall_mem_cons] at opens
      rw [named_cons]
      simp only [laterMemberLexemes, membersDepth, List.append_assoc, List.cons_append,
        List.nil_append]
      rw [mostOpenFrom_cons_of_level _ (by rfl), mostOpenFrom_cons_of_level _ (by rfl),
        mostOpenFrom_cons_of_level _ (by rfl), opens.1, ih opens.2]
      omega

theorem Value.Whole.opensDepth {value : Value} (whole : value.Whole) : value.OpensDepth := by
  have leaf (opened : Nat) (lexeme : Lexeme) (rest : List Lexeme)
      (level : lexeme.openAfter opened = opened) :
      mostOpenFrom opened (lexeme :: rest) = max (opened + 0) (mostOpenFrom opened rest) := by
    rw [mostOpenFrom, level, Nat.add_zero]
  induction whole with
  | null => exact fun opened rest => leaf opened _ rest rfl
  | boolean value => exact fun opened rest => leaf opened _ rest rfl
  | integer value => exact fun opened rest => leaf opened _ rest rfl
  | text value => exact fun opened rest => leaf opened _ rest rfl
  | @list items _ ih =>
      intro opened rest
      rw [depth_listOf]
      cases items with
      | nil =>
          simp only [listOf, lexemes, itemsDepth, List.cons_append, List.nil_append]
          rw [mostOpenFrom_cons_of_opening _ (by rfl), mostOpenFrom_cons_of_closing _ (by rfl)]
      | cons first items =>
          rw [List.forall_mem_cons] at ih
          simp only [listOf, lexemes, itemsDepth, List.append_assoc, List.cons_append,
            List.nil_append]
          rw [mostOpenFrom_cons_of_opening _ (by rfl), ih.1, mostOpenFrom_laterItems ih.2,
            mostOpenFrom_cons_of_closing _ (by rfl)]
          omega
  | @object members _ ih =>
      intro opened rest
      rw [depth_objectOf, objectOf, ← named]
      cases members with
      | nil =>
          simp only [named, List.map_nil, lexemes, membersDepth, List.cons_append, List.nil_append]
          rw [mostOpenFrom_cons_of_opening _ (by rfl), mostOpenFrom_cons_of_closing _ (by rfl)]
      | cons first members =>
          rw [List.forall_mem_cons] at ih
          rw [named_cons]
          simp only [lexemes, membersDepth, List.append_assoc, List.cons_append, List.nil_append]
          rw [mostOpenFrom_cons_of_opening _ (by rfl), mostOpenFrom_cons_of_level _ (by rfl),
            mostOpenFrom_cons_of_level _ (by rfl), ih.1, mostOpenFrom_laterMembers ih.2,
            mostOpenFrom_cons_of_closing _ (by rfl)]
          omega

/-- In a written form of a value as many lists and objects are open at a time as the value is
deep. -/
theorem mostOpen_of_mem_writtenForms {value : Value} (whole : value.Whole) {text : String}
    (written : text ∈ value.writtenForms) : mostOpen text = value.depth := by
  have counted := whole.opensDepth 0 []
  rw [List.append_nil, Nat.zero_add, mostOpenFrom, Nat.max_zero] at counted
  rw [mostOpen, lexemes_of_mem_writtenForms whole written, counted]

end Counting

section Machine

open State

variable {stack : List Frame} {rest : List Lexeme}

/-- The machine takes the lexemes of a value as the value, with anything open around it. -/
def Value.Recognised (value : Value) : Prop :=
  ∀ stack rest, run (.value stack) (value.lexemes ++ rest) = run (.complete value stack) rest

/-- A value begins with no closing mark, so it can be the first item of a list. -/
theorem run_firstItem {value : Value} (whole : value.Whole) :
    run (.firstItem stack) (value.lexemes ++ rest) =
      run (.value (.list [] :: stack)) (value.lexemes ++ rest) := by
  cases whole with
  | @list items each => cases items <;> rfl
  | @object members each => cases members <;> rfl
  | _ => rfl

theorem run_laterItems {items : List Value} (recognised : ∀ item ∈ items, item.Recognised)
    (found : List Value) (item : Value) :
    run (.complete item (.list found :: stack))
        (laterItemLexemes items ++ (.closeList :: rest)) =
      run (.complete (.listOf (found.reverse ++ item :: items)) stack) rest := by
  induction items generalizing found item with
  | nil =>
      rw [laterItemLexemes, List.nil_append]
      change run (.complete (.list (item :: found).reverse true) stack) rest = _
      rw [List.reverse_cons]
      rfl
  | cons first items ih =>
      rw [List.forall_mem_cons] at recognised
      rw [laterItemLexemes]
      simp only [List.append_assoc, List.cons_append, List.nil_append]
      change run (.value (.list (item :: found) :: stack))
        (first.lexemes ++ (laterItemLexemes items ++ (.closeList :: rest))) = _
      rw [recognised.1, ih recognised.2, List.reverse_cons, List.append_assoc]
      rfl

theorem run_laterMembers {members : List (String × Value)}
    (recognised : ∀ member ∈ members, member.2.Recognised)
    (found : List (Option String × Value)) (name : String) (value : Value) :
    run (.complete value (.object found (some name) :: stack))
        (laterMemberLexemes (named members) ++ (.closeObject :: rest)) =
      run (.complete (.object (found.reverse ++ (some name, value) :: named members) true) stack)
        rest := by
  induction members generalizing found name value with
  | nil =>
      rw [named, List.map_nil, laterMemberLexemes, List.nil_append]
      change run (.complete (.object ((some name, value) :: found).reverse true) stack) rest = _
      rw [List.reverse_cons]
  | cons first members ih =>
      rw [List.forall_mem_cons] at recognised
      rw [named_cons, laterMemberLexemes]
      simp only [List.append_assoc, List.cons_append, List.nil_append]
      change run (.value (.object ((some name, value) :: found) (some first.1) :: stack))
        (first.2.lexemes ++ (laterMemberLexemes (named members) ++ (.closeObject :: rest))) = _
      rw [recognised.1, ih recognised.2, List.reverse_cons, List.append_assoc]
      rfl

theorem Value.Whole.recognised {value : Value} (whole : value.Whole) : value.Recognised := by
  induction whole with
  | null => exact fun _ _ => rfl
  | boolean value => exact fun _ _ => rfl
  | integer value => exact fun _ _ => rfl
  | text value => exact fun _ _ => rfl
  | @list items each ih =>
      intro stack rest
      cases items with
      | nil => rfl
      | cons first items =>
          rw [List.forall_mem_cons] at each ih
          rw [listOf, lexemes]
          simp only [List.append_assoc, List.cons_append, List.nil_append]
          change run (.firstItem stack)
            (first.lexemes ++ (laterItemLexemes items ++ (.closeList :: rest))) = _
          rw [run_firstItem each.1, ih.1]
          exact run_laterItems ih.2 [] first
  | @object members each ih =>
      intro stack rest
      cases members with
      | nil => rfl
      | cons first members =>
          rw [List.forall_mem_cons] at ih
          rw [objectOf, ← named, named_cons, lexemes]
          simp only [List.append_assoc, List.cons_append, List.nil_append]
          change run (.value (.object [] (some first.1) :: stack))
            (first.2.lexemes ++ (laterMemberLexemes (named members) ++ (.closeObject :: rest))) = _
          rw [ih.1]
          exact run_laterMembers ih.2 [] first.1 first.2

/-- A written form of a value is read as the value and nothing behind it. -/
theorem ofText_of_mem_writtenForms {value : Value} (whole : value.Whole) {text : String}
    (written : text ∈ value.writtenForms) : Document.ofText text = ⟨value, false⟩ := by
  have recognised := whole.recognised [] []
  rw [List.append_nil] at recognised
  rw [Document.ofText, lexemes_of_mem_writtenForms whole written, recognised]
  rfl

end Machine

end ActionStream.Json
