import QueueBoard.Json.Writer
import QueueBoard.Json.Reader
/-!
# Texts of values

Both forms of a text are one form with blanks in different places (`toList_compact`, `toList_indented`): before
each item and closing bracket, and after each colon.
-/

namespace QueueBoard.Json

/-! ## Blanks -/

theorem skipBlanks_append {blanks : List Char} (h : skipBlanks blanks = []) (text : List Char) :
    skipBlanks (blanks ++ text) = skipBlanks text := by
  induction blanks with
  | nil => rfl
  | cons c blanks ih =>
    rw [skipBlanks] at h
    split at h
    · rename_i hc
      rw [List.cons_append, skipBlanks, if_pos hc]
      exact ih h
    · cases h

theorem skipBlanks_append_of_cons {text tail : List Char} {c : Char} (h : skipBlanks text = c :: tail)
    (rest : List Char) : skipBlanks (text ++ rest) = c :: (tail ++ rest) := by
  induction text with
  | nil => cases h
  | cons d text ih =>
    rw [skipBlanks] at h
    rw [List.cons_append, skipBlanks]
    split at h
    · rename_i hd
      rw [if_pos hd]
      exact ih h
    · rename_i hd
      cases h
      rw [if_neg hd]

/-! ## Places of blanks -/

/-- Where blanks stand in a text: before each item and closing bracket of a level, and after each colon. -/
structure Spacing where
  gap : Nat → List Char
  afterColon : List Char
  gap_blank : ∀ level, skipBlanks (gap level) = []
  afterColon_blank : skipBlanks afterColon = []

/-- No blanks at all. -/
def Spacing.tight : Spacing := ⟨fun _ => [], [], fun _ => rfl, rfl⟩

theorem skipBlanks_newline (level : Nat) : skipBlanks (newline level).toList = [] := by
  have hspaces : ∀ n, skipBlanks (List.replicate n ' ') = [] := by
    intro n
    induction n with
    | zero => rfl
    | succ n ih => exact ih
  simpa [newline, skipBlanks] using hspaces (2 * level)

/-- Items and closing brackets on lines of their own. -/
def Spacing.lines : Spacing := ⟨fun level => (newline level).toList, [' '], skipBlanks_newline, rfl⟩

/-! ## Texts -/

section Spelling

variable (s : Spacing)

mutual
/-- The text of a value at a level. -/
def spell (level : Nat) : Json → List Char
  | .array (item :: rest) => '[' :: (spellItems (level + 1) (item :: rest) ++ (s.gap level ++ [']']))
  | .object (member :: rest) =>
    '\x7b' :: (spellMembers (level + 1) (member :: rest) ++ (s.gap level ++ ['\x7d']))
  | value => value.scalarText.toList

/-- The text of items. -/
def spellItems (level : Nat) : List Json → List Char
  | [] => []
  | [item] => s.gap level ++ item.spell level
  | item :: next :: rest => s.gap level ++ (item.spell level ++ ',' :: spellItems level (next :: rest))

/-- The text of members. -/
def spellMembers (level : Nat) : List (String × Json) → List Char
  | [] => []
  | [(name, value)] => s.gap level ++ (quote name ++ ':' :: (s.afterColon ++ value.spell level))
  | (name, value) :: next :: rest =>
    s.gap level ++ (quote name ++
      ':' :: (s.afterColon ++ (value.spell level ++ ',' :: spellMembers level (next :: rest))))
end

end Spelling

mutual
theorem toList_compact (level : Nat) : ∀ value : Json, value.compact.toList = value.spell .tight level
  | .null => rfl
  | .boolean _ => rfl
  | .number _ => rfl
  | .string _ => rfl
  | .array [] => rfl
  | .array (item :: rest) => by
    simp [compact, spell, toList_compactItems (level + 1), Spacing.tight]
  | .object [] => rfl
  | .object (member :: rest) => by
    simp [compact, spell, toList_compactMembers (level + 1), Spacing.tight]

theorem toList_compactItems (level : Nat) :
    ∀ items, (compactItems items).toList = spellItems .tight level items
  | [] => rfl
  | [item] => by
    simp [compactItems, spellItems, toList_compact level, Spacing.tight]
  | item :: next :: rest => by
    simp [compactItems, spellItems, toList_compact level, toList_compactItems level (next :: rest),
      Spacing.tight]

theorem toList_compactMembers (level : Nat) :
    ∀ members, (compactMembers members).toList = spellMembers .tight level members
  | [] => rfl
  | [(name, value)] => by
    simp [compactMembers, spellMembers, toList_compact level, Spacing.tight]
  | (name, value) :: next :: rest => by
    simp [compactMembers, spellMembers, toList_compact level, toList_compactMembers level (next :: rest),
      Spacing.tight]
end

mutual
theorem toList_indented :
    ∀ (level : Nat) (value : Json), (value.indented level).toList = value.spell .lines level
  | _, .null => rfl
  | _, .boolean _ => rfl
  | _, .number _ => rfl
  | _, .string _ => rfl
  | _, .array [] => rfl
  | level, .array (item :: rest) => by
    simp [indented, spell, toList_indentedItems (level + 1), Spacing.lines]
  | _, .object [] => rfl
  | level, .object (member :: rest) => by
    simp [indented, spell, toList_indentedMembers (level + 1), Spacing.lines]

theorem toList_indentedItems (level : Nat) :
    ∀ items, (indentedItems level items).toList = spellItems .lines level items
  | [] => rfl
  | [item] => by
    simp [indentedItems, spellItems, toList_indented level, Spacing.lines]
  | item :: next :: rest => by
    simp [indentedItems, spellItems, toList_indented level, toList_indentedItems level (next :: rest),
      Spacing.lines]

theorem toList_indentedMembers (level : Nat) :
    ∀ members, (indentedMembers level members).toList = spellMembers .lines level members
  | [] => rfl
  | [(name, value)] => by
    simp [indentedMembers, spellMembers, toList_indented level, Spacing.lines]
  | (name, value) :: next :: rest => by
    simp [indentedMembers, spellMembers, toList_indented level, toList_indentedMembers level (next :: rest),
      Spacing.lines]
end

/-! ## Lengths -/

section Lengths

variable (s : Spacing) (level : Nat)

theorem length_spell_le_spellItems {items : List Json} {item : Json} (h : item ∈ items) :
    (item.spell s level).length ≤ (spellItems s level items).length := by
  induction items with
  | nil => cases h
  | cons first items ih =>
    cases items with
    | nil =>
      cases List.mem_singleton.1 h
      rw [spellItems, List.length_append]
      exact Nat.le_add_left _ _
    | cons next items =>
      rw [spellItems, List.length_append, List.length_append, List.length_cons]
      rcases List.mem_cons.1 h with rfl | h
      · omega
      · have := ih h
        omega

theorem length_le_length_spellItems (items : List Json) :
    items.length ≤ (spellItems s level items).length + 1 := by
  induction items with
  | nil => exact Nat.zero_le _
  | cons first items ih =>
    cases items with
    | nil => exact Nat.le_add_left _ _
    | cons next items =>
      simp only [spellItems, List.length_append, List.length_cons] at ih ⊢
      omega

theorem length_spell_le_spellMembers {members : List (String × Json)} {m : String × Json} (h : m ∈ members) :
    (m.2.spell s level).length ≤ (spellMembers s level members).length := by
  induction members with
  | nil => cases h
  | cons first members ih =>
    obtain ⟨name, value⟩ := first
    cases members with
    | nil =>
      cases List.mem_singleton.1 h
      simp only [spellMembers, List.length_append, List.length_cons]
      omega
    | cons next members =>
      simp only [spellMembers, List.length_append, List.length_cons]
      rcases List.mem_cons.1 h with rfl | h
      · dsimp only
        omega
      · have := ih h
        omega

theorem length_le_length_spellMembers (members : List (String × Json)) :
    members.length ≤ (spellMembers s level members).length + 1 := by
  induction members with
  | nil => exact Nat.zero_le _
  | cons first members ih =>
    obtain ⟨name, value⟩ := first
    cases members with
    | nil => exact Nat.le_add_left _ _
    | cons next members =>
      simp only [spellMembers, List.length_append, List.length_cons] at ih ⊢
      omega

theorem length_spell_le_spell_array {items : List Json} {item : Json} (h : item ∈ items) :
    (item.spell s (level + 1)).length ≤ ((Json.array items).spell s level).length := by
  obtain ⟨first, rest, rfl⟩ := List.exists_cons_of_ne_nil (List.ne_nil_of_mem h)
  have hlength := length_spell_le_spellItems s (level + 1) h
  rw [spell, List.length_cons, List.length_append]
  omega

theorem length_spell_le_spell_object {members : List (String × Json)} {m : String × Json} (h : m ∈ members) :
    (m.2.spell s (level + 1)).length ≤ ((Json.object members).spell s level).length := by
  obtain ⟨first, rest, rfl⟩ := List.exists_cons_of_ne_nil (List.ne_nil_of_mem h)
  have hlength := length_spell_le_spellMembers s (level + 1) h
  rw [spell, List.length_cons, List.length_append]
  omega

end Lengths

end QueueBoard.Json
