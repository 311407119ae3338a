import Mathlib.Data.List.Basic
import QueueBoard.Proofs.Decimal.Digits
import QueueBoard.Proofs.Text.Splitting
import QueueBoard.Yaml.Writer
/-!
# YAML documents read back

Every member of a document with no value inside stands on a line of its own, its name in front, so the lines name
these members in their order (`entries_document`), provided that strings can be written plain.
-/

namespace QueueBoard.Yaml

/-! ## Reading lines -/

/-- The name and the value on a line, be it indented or the first one of an item. -/
def nameValue? (line : String) : Option (String × String) :=
  let bare := line.toList.dropWhile fun c => c == ' ' || c == '-'
  match bare.dropWhile (· != ':') with
  | ':' :: ' ' :: value => some (String.ofList (bare.takeWhile (· != ':')), String.ofList value)
  | _ => none

/-- The names in a document that have a value on their line. -/
def entries (document : String) : List (String × String) := (Text.lines document).filterMap nameValue?

/-- Whether a name can be told from the value after it. -/
def isKey (name : String) : Bool :=
  name.toList.all (fun c => c != ':' && !isBreak c) && name.toList.head?.all fun c => c != ' ' && c != '-'

section Lines

variable {name : String}

theorem nameValue?_indented (line : String) : nameValue? ("  " ++ line) = nameValue? line := by
  simp [nameValue?]

theorem nameValue?_item (line : String) : nameValue? ("-" ++ " " ++ line) = nameValue? line := by
  simp [nameValue?]

/-- Behind the name there is the colon. -/
theorem bare_of_isKey (h : isKey name = true) (rest : List Char) :
    (name.toList ++ ':' :: rest).dropWhile (fun c => c == ' ' || c == '-') = name.toList ++ ':' :: rest ∧
      (name.toList ++ ':' :: rest).takeWhile (· != ':') = name.toList ∧
      (name.toList ++ ':' :: rest).dropWhile (· != ':') = ':' :: rest := by
  obtain ⟨hall, hhead⟩ := Bool.and_eq_true_iff.1 h
  have hcolon : ∀ c ∈ name.toList, (c != ':') = true := fun c hc =>
    (Bool.and_eq_true_iff.1 (List.all_eq_true.1 hall c hc)).1
  refine ⟨?_, Text.takeWhile_append hcolon (by simp)⟩
  cases hname : name.toList with
  | nil => rfl
  | cons c chars =>
    rw [hname] at hhead
    refine List.dropWhile_cons_of_neg ?_
    simpa using hhead

theorem nameValue?_member (h : isKey name = true) (value : String) :
    nameValue? (name ++ ":" ++ " " ++ value) = some (name, value) := by
  have hchars : (name ++ ":" ++ " " ++ value).toList = name.toList ++ ':' :: ' ' :: value.toList := by simp
  obtain ⟨hbare, hfront, hrest⟩ := bare_of_isKey h (' ' :: value.toList)
  rw [nameValue?, hchars, hbare, hfront, hrest]
  simp

theorem nameValue?_head (h : isKey name = true) : nameValue? (name ++ ":") = none := by
  have hchars : (name ++ ":").toList = name.toList ++ ':' :: [] := by simp
  obtain ⟨hbare, -, hrest⟩ := bare_of_isKey h []
  rw [nameValue?, hchars, hbare, hrest]
  rfl

end Lines

/-! ## Lines without breaks -/

/-- A text of one line. -/
def Unbroken (line : String) : Prop := ∀ c ∈ line.toList, isBreak c = false

theorem unbroken_of_all {text : String} (h : text.toList.all (fun c => !isBreak c) = true) : Unbroken text :=
  fun c hc => by simpa using List.all_eq_true.1 h c hc

theorem unbroken_append {first second : String} : Unbroken (first ++ second) ↔ Unbroken first ∧ Unbroken second := by
  simp only [Unbroken, String.toList_append, List.forall_mem_append]

theorem continued_of_unbroken {text : List Char} (h : ∀ c ∈ text, isBreak c = false) : continued text = text := by
  induction text with
  | nil => rfl
  | cons c rest ih =>
    obtain ⟨hc, hrest⟩ := List.forall_mem_cons.1 h
    cases rest with
    | nil => rfl
    | cons d rest =>
      rw [continued, ih hrest, hc]
      rfl

section Unbroken

variable {line head : String} {lines : List String}

theorem indentLine_cases (h : Unbroken line) : indentLine line = "" ∧ line = "" ∨ indentLine line = "  " ++ line := by
  rw [indentLine]
  split
  · rename_i hnil
    exact .inl ⟨rfl, String.toList_eq_nil_iff.1 hnil⟩
  · rename_i c rest hcons
    have hc : isBreak c = false := h c (by rw [hcons]; exact .head _)
    right
    rw [← hcons, continued_of_unbroken h, String.ofList_toList, hc]
    rfl

theorem nameValue?_indentLine (h : Unbroken line) : nameValue? (indentLine line) = nameValue? line := by
  rcases indentLine_cases h with ⟨hindent, rfl⟩ | hindent
  · rw [hindent]
  · rw [hindent, nameValue?_indented]

theorem unbroken_indentLine (h : Unbroken line) : Unbroken (indentLine line) := by
  rcases indentLine_cases h with ⟨hindent, rfl⟩ | hindent
  · rwa [hindent]
  · rw [hindent, unbroken_append]
    exact ⟨unbroken_of_all (by decide), h⟩

theorem headed_cons (h : Unbroken line) (rest : List String) :
    headed head (line :: rest) = (head ++ " " ++ line) :: rest.map indentLine := by
  rw [headed, continued_of_unbroken h, String.ofList_toList]

end Unbroken

/-- Lines without breaks inside that name these members. -/
structure Names (lines : List String) (members : List (String × String)) : Prop where
  unbroken : ∀ line ∈ lines, Unbroken line
  filterMap_nameValue? : lines.filterMap nameValue? = members

namespace Names

variable {lines lines' : List String} {members members' : List (String × String)}

theorem append (h : Names lines members) (h' : Names lines' members') :
    Names (lines ++ lines') (members ++ members') :=
  ⟨List.forall_mem_append.2 ⟨h.unbroken, h'.unbroken⟩,
    by rw [List.filterMap_append, h.filterMap_nameValue?, h'.filterMap_nameValue?]⟩

theorem indent (h : Names lines members) : Names (lines.map indentLine) members := by
  refine ⟨List.forall_mem_map.2 fun line hline => unbroken_indentLine (h.unbroken line hline), ?_⟩
  rw [List.filterMap_map, ← h.filterMap_nameValue?]
  exact List.filterMap_congr fun line hline => nameValue?_indentLine (h.unbroken line hline)

/-- The lines of an item begin behind a dash. -/
theorem item (h : Names lines members) : Names (headed "-" lines) members := by
  cases lines with
  | nil =>
    obtain ⟨-, rfl⟩ := h
    exact ⟨by simpa [headed] using unbroken_of_all (by decide), rfl⟩
  | cons line rest =>
    obtain ⟨hline, hrest⟩ := List.forall_mem_cons.1 h.unbroken
    have hinner := (show Names rest (rest.filterMap nameValue?) from ⟨hrest, rfl⟩).indent
    rw [headed_cons hline]
    refine ⟨List.forall_mem_cons.2 ⟨?_, hinner.unbroken⟩, ?_⟩
    · rw [unbroken_append]
      exact ⟨unbroken_of_all (by decide), hline⟩
    · rw [List.filterMap_cons, nameValue?_item, hinner.filterMap_nameValue?, ← h.filterMap_nameValue?,
        List.filterMap_cons]

end Names

/-! ## Values -/

/-- A string that may be written as it is. -/
structure IsUnquoted (s : String) : Prop where
  allowed : allowsPlain s.toList = true
  text : readsOtherwise s = false

instance (s : String) : Decidable (IsUnquoted s) :=
  decidable_of_iff (allowsPlain s.toList = true ∧ readsOtherwise s = false)
    ⟨fun h => ⟨h.1, h.2⟩, fun h => ⟨h.allowed, h.text⟩⟩

/-- Whether there is no other value in a value. -/
def isScalar : Json → Bool
  | .array (_ :: _) => false
  | .object (_ :: _) => false
  | _ => true

/-- What is written for a value with no other one in it, a string being written as it is. -/
def word : Json → String
  | .null => "null"
  | .boolean b => if b then "true" else "false"
  | .number n => numberText n
  | .string s => s
  | .array _ => "[]"
  | .object _ => "\x7b\x7d"

mutual
/-- The members with no value inside, at any depth, in their order. -/
def leaves : Json → List (String × String)
  | .array items => leavesOfItems items
  | .object members => leavesOfMembers members
  | _ => []

/-- The leaves of items. -/
def leavesOfItems : List Json → List (String × String)
  | [] => []
  | item :: rest => leaves item ++ leavesOfItems rest

/-- The leaves of members. -/
def leavesOfMembers : List (String × Json) → List (String × String)
  | [] => []
  | (name, value) :: rest =>
    let inner := leaves value
    (if isScalar value then [(name, word value)] else inner) ++ leavesOfMembers rest
end

theorem leavesOfItems_eq_flatMap (items : List Json) : leavesOfItems items = items.flatMap leaves := by
  induction items with
  | nil => rfl
  | cons item items ih => rw [leavesOfItems, ih, List.flatMap_cons]

theorem leavesOfMembers_scalar {value : Json} (h : isScalar value = true) (name : String)
    (rest : List (String × Json)) :
    leavesOfMembers ((name, value) :: rest) = (name, word value) :: leavesOfMembers rest := by
  rw [leavesOfMembers, if_pos h]
  rfl

theorem leavesOfMembers_object (name : String) (m : String × Json) (members rest : List (String × Json)) :
    leavesOfMembers ((name, .object (m :: members)) :: rest) = leavesOfMembers (m :: members) ++ leavesOfMembers rest :=
  rfl

theorem word_boolean (b : Bool) : word (.boolean b) = toString b := by cases b <;> rfl

/-- Values in which there are no other items than arrays and objects, names are keys, and strings may be written
plain. -/
inductive Plain : Json → Prop
  | array {items : List Json} (h : ∀ item ∈ items, Plain item) : Plain (.array items)
  | object {members : List (String × Json)} (hkeys : ∀ m ∈ members, isKey m.1 = true)
      (hstrings : ∀ m ∈ members, ∀ s, m.2 = .string s → IsUnquoted s)
      (h : ∀ m ∈ members, isScalar m.2 = false → Plain m.2) : Plain (.object members)

/-- A value that is written as one word. -/
structure IsWord (value : Json) : Prop where
  scalar : isScalar value = true
  plain : ∀ s, value = .string s → IsUnquoted s

theorem isWord_boolean (b : Bool) : IsWord (.boolean b) := ⟨rfl, by rintro _ ⟨⟩⟩

theorem isWord_natural (n : Nat) : IsWord (.natural n) := ⟨rfl, by rintro _ ⟨⟩⟩

theorem isWord_string {s : String} (h : IsUnquoted s) : IsWord (.string s) := ⟨rfl, by rintro _ ⟨⟩; exact h⟩

theorem isWord_float (x : Float) : IsWord (.float x) := by
  rw [Json.float]
  split <;> exact ⟨rfl, by rintro _ ⟨⟩⟩

theorem Plain.ofMembers {members : List (String × Json)}
    (h : ∀ m ∈ members, isKey m.1 = true ∧ (IsWord m.2 ∨ Plain m.2)) : Plain (.object members) := by
  refine .object (fun m hm => (h m hm).1) (fun m hm s hs => ?_) fun m hm hinner => ?_
  · rcases (h m hm).2 with hword | hplain
    · exact hword.plain s hs
    · rw [hs] at hplain
      cases hplain
  · rcases (h m hm).2 with hword | hplain
    · exact absurd hword.scalar (by simp [hinner])
    · exact hplain

theorem isBreak_of_isMark {c : Char} (h : Decimal.isMark c = true) : isBreak c = false := by
  have hcode : ∀ n, Decimal.isMark (Char.ofNat n) = false → (c.toNat == n) = false := by
    rintro n hn
    rw [beq_eq_false_iff_ne]
    rintro rfl
    rw [Char.ofNat_toNat, h] at hn
    cases hn
  have hchar : ∀ d, Decimal.isMark d = false → (c == d) = false := by
    rintro d hd
    rw [beq_eq_false_iff_ne]
    rintro rfl
    rw [h] at hd
    cases hd
  rw [isBreak, hchar '\n' (by decide), hchar '\r' (by decide), hcode 0x85 (by decide), hcode 0x2028 (by decide),
    hcode 0x2029 (by decide)]
  rfl

theorem unbroken_numberText (n : Json.Number) : Unbroken (numberText n) := by
  have hmarks : ∀ c ∈ (numberText n).toList, Decimal.isMark c = true := by
    intro c hc
    cases n with
    | natural n => exact Decimal.isMark_of_mem_toDigits (by simpa [numberText] using hc)
    | negative n =>
      rw [numberText, String.toList_append, List.mem_append] at hc
      rcases hc with hc | hc
      · exact List.all_eq_true.1 (show "-".toList.all Decimal.isMark = true by decide) c hc
      · exact Decimal.isMark_of_mem_toDigits (by simpa using hc)
    | float x => exact Decimal.Style.isMark_of_mem_text (by decide) (by decide) hc
  exact fun c hc => isBreak_of_isMark (hmarks c hc)

section Plain

variable {s : String} (h : IsUnquoted s)
include h

theorem IsUnquoted.needsEscapes : Yaml.needsEscapes s.toList = false ∧ s.toList.any isBreak = false := by
  have := h.allowed
  simp only [allowsPlain, Bool.not_eq_true', Bool.or_eq_false_iff] at this
  exact ⟨this.1.1.1.1.1, this.1.1.1.1.2⟩

theorem IsUnquoted.unbroken : Unbroken s := by
  have := h.needsEscapes.2
  simpa [Unbroken] using this

theorem IsUnquoted.stringLines_eq : stringLines s = [s] := by
  have hbreak : s.toList.contains '\n' = false := by
    rw [Bool.eq_false_iff]
    intro hmem
    exact absurd (h.unbroken _ (List.contains_iff_mem.1 hmem)) (by decide)
  rw [stringLines]
  simp only [hbreak, h.needsEscapes.1, h.text, h.allowed]
  rfl

end Plain

theorem lines_scalar {value : Json} (h : isScalar value = true) (hs : ∀ s, value = .string s → IsUnquoted s) :
    lines value = [word value] ∧ Unbroken (word value) := by
  cases value with
  | null => exact ⟨rfl, unbroken_of_all (by decide)⟩
  | boolean b => exact ⟨rfl, unbroken_of_all (by cases b <;> decide)⟩
  | number n => exact ⟨rfl, unbroken_numberText n⟩
  | string s => exact ⟨(hs s rfl).stringLines_eq, (hs s rfl).unbroken⟩
  | array items =>
    cases items with
    | nil => exact ⟨rfl, unbroken_of_all (by decide)⟩
    | cons item items => cases h
  | object members =>
    cases members with
    | nil => exact ⟨rfl, unbroken_of_all (by decide)⟩
    | cons m members => cases h

theorem unbroken_of_isKey {name : String} (h : isKey name = true) : Unbroken name := by
  obtain ⟨hall, -⟩ := Bool.and_eq_true_iff.1 h
  intro c hc
  simpa using (Bool.and_eq_true_iff.1 (List.all_eq_true.1 hall c hc)).2

section Members

variable {name : String} {value : Json} {members : List (String × Json)}

/-- A member with no value inside stands on one line. -/
theorem names_scalar (hkey : isKey name = true) (hvalue : isScalar value = true)
    (hs : ∀ s, value = .string s → IsUnquoted s) : Names (headed (name ++ ":") (lines value)) [(name, word value)] := by
  obtain ⟨hlines, hword⟩ := lines_scalar hvalue hs
  have hname : Unbroken (name ++ ":" ++ " " ++ word value) :=
    unbroken_append.2 ⟨unbroken_append.2 ⟨unbroken_append.2 ⟨unbroken_of_isKey hkey, unbroken_of_all (by decide)⟩,
      unbroken_of_all (by decide)⟩, hword⟩
  rw [hlines, headed_cons hword, List.map_nil]
  exact ⟨by simpa using hname, by rw [List.filterMap_cons, nameValue?_member hkey, List.filterMap_nil]⟩

/-- The name of a member with values inside stands alone on its line. -/
theorem names_head (hkey : isKey name = true) : Names [name ++ ":"] [] := by
  refine ⟨?_, by rw [List.filterMap_cons, nameValue?_head hkey, List.filterMap_nil]⟩
  rw [List.forall_mem_singleton, unbroken_append]
  exact ⟨unbroken_of_isKey hkey, unbroken_of_all (by decide)⟩

theorem names_memberLines (hkeys : ∀ m ∈ members, isKey m.1 = true)
    (hstrings : ∀ m ∈ members, ∀ s, m.2 = .string s → IsUnquoted s)
    (h : ∀ m ∈ members, isScalar m.2 = false → Names (lines m.2) (leaves m.2)) :
    Names (memberLines members) (leavesOfMembers members) := by
  induction members with
  | nil => exact ⟨by simp [memberLines], rfl⟩
  | cons m rest ih =>
    obtain ⟨hkey, hkeys⟩ := List.forall_mem_cons.1 hkeys
    obtain ⟨hstring, hstrings⟩ := List.forall_mem_cons.1 hstrings
    obtain ⟨hm, hrest⟩ := List.forall_mem_cons.1 h
    have hafter := ih hkeys hstrings hrest
    obtain ⟨name, value⟩ := m
    have hscalar := fun hvalue : isScalar value = true => (names_scalar hkey hvalue hstring).append hafter
    rw [leavesOfMembers]
    cases value with
    | array items =>
      cases items with
      | nil => exact hscalar rfl
      | cons item items => exact ((names_head hkey).append (hm rfl)).append hafter
    | object inner =>
      cases inner with
      | nil => exact hscalar rfl
      | cons m inner => exact ((names_head hkey).append (hm rfl).indent).append hafter
    | _ => exact hscalar rfl

end Members

theorem Plain.names {value : Json} (h : Plain value) : Names (lines value) (leaves value) := by
  induction h with
  | @array items h ih =>
    have hitems : ∀ items : List Json, (∀ item ∈ items, Names (lines item) (leaves item)) →
        Names (itemLines items) (leavesOfItems items) := by
      intro items
      induction items with
      | nil => exact fun _ => ⟨by simp [itemLines], rfl⟩
      | cons item rest ih =>
        intro h
        obtain ⟨hitem, hrest⟩ := List.forall_mem_cons.1 h
        exact hitem.item.append (ih hrest)
    cases items with
    | nil => exact ⟨by simpa [lines] using unbroken_of_all (by decide), rfl⟩
    | cons item items => exact hitems _ ih
  | @object members hkeys hstrings h ih =>
    cases members with
    | nil => exact ⟨by simpa [lines] using unbroken_of_all (by decide), rfl⟩
    | cons m members => exact names_memberLines hkeys hstrings ih

/-- **A document names the members that have no values inside,** in their order; an empty line after it names none. -/
theorem entries_document {value : Json} (h : Plain value) : entries (document value ++ "\n") = leaves value := by
  have hlines : document value ++ "\n" = String.join ((lines value ++ [""]).map (· ++ "\n")) := by
    rw [document, List.map_append, String.join_append]
    rfl
  have hbreaks : ∀ line ∈ lines value ++ [""], '\n' ∉ line.toList := by
    rw [List.forall_mem_append]
    exact ⟨fun line hline hmem => absurd (h.names.unbroken line hline _ hmem) (by decide), by simp⟩
  rw [entries, hlines, Text.lines_join hbreaks, List.filterMap_append, h.names.filterMap_nameValue?]
  exact List.append_nil _

theorem headed_ne_nil (head : String) (rest : List String) : headed head rest ≠ [] := by
  cases rest <;> exact List.cons_ne_nil _ _

theorem document_array_ne_empty (items : List Json) : document (.array items) ≠ "" := by
  have hlines : lines (.array items) ≠ [] := by
    cases items with
    | nil => exact List.cons_ne_nil _ _
    | cons item rest =>
      rw [lines, itemLines]
      exact fun hnil => headed_ne_nil _ _ (List.append_eq_nil_iff.1 hnil).1
  obtain ⟨line, rest, hcons⟩ := List.exists_cons_of_ne_nil hlines
  rw [document, hcons, List.map_cons, String.join_cons]
  intro hempty
  simpa using congrArg String.toList hempty

end QueueBoard.Yaml
