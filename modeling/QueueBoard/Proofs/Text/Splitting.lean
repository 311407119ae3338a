import Mathlib.Data.List.TakeWhile
import Mathlib.Data.String.Basic
/-!
# Texts taken apart

A run of characters ends where the first other one stands (`takeWhile_append`). Splitting a text at a character is
splitting the list of its characters (`splitOn_singleton`), so parts that do not have the character are found again
in the text that joins them with it (`splitOn_intercalate`), lines in a text where a break ends each of them
(`lines_join`).
-/

namespace QueueBoard.Text

/-! ## Runs -/

theorem takeWhile_append {β : Type} {p : β → Bool} {xs ys : List β} (hxs : ∀ x ∈ xs, p x = true)
    (hys : ∀ y ∈ ys.head?, p y = false) : (xs ++ ys).takeWhile p = xs ∧ (xs ++ ys).dropWhile p = ys := by
  rw [List.takeWhile_append_of_pos hxs, List.dropWhile_append_of_pos hxs]
  cases ys with
  | nil => simp
  | cons y ys => simp [hys y rfl]

/-! ## Splitting at a character -/

section

open String (utf8Len)

variable (sep : Char)

/-- The first character is the whole separator: one step reads it and is past it. -/
theorem next_singleton : String.Pos.Raw.get (.singleton sep) 0 = sep ∧
    String.Pos.Raw.next (.singleton sep) 0 = ⟨sep.utf8Size⟩ ∧
    String.Pos.Raw.atEnd (.singleton sep) ⟨sep.utf8Size⟩ = true := by
  rw [String.singleton_eq_ofList]
  refine ⟨String.get_of_valid [] [sep], ?_, ?_⟩
  · simpa using String.next_of_valid [] sep []
  · simpa using (String.atEnd_of_valid [sep] []).2 rfl

/-- Splitting from some place on: `front` is done with, `part` belongs to the part that has begun. -/
theorem splitOnAux_singleton (front part rest : List Char) (done : List String) :
    String.splitOnAux (.ofList (front ++ part ++ rest)) (.singleton sep) ⟨utf8Len front⟩
        ⟨utf8Len front + utf8Len part⟩ 0 done =
      done.reverse ++ (List.splitOnPPrepend (· == sep) rest part.reverse).map String.ofList := by
  induction rest generalizing front part done with
  | nil =>
    have hend := (String.atEnd_of_valid (front ++ part) []).2 rfl
    rw [String.utf8Len_append] at hend
    rw [String.splitOnAux, if_pos hend, String.extract_of_valid front part []]
    simp
  | cons c rest ih =>
    have hend := (String.atEnd_of_valid (front ++ part) (c :: rest)).not.2 (List.cons_ne_nil _ _)
    have hget := String.get_of_valid (front ++ part) (c :: rest)
    have hnext := String.next_of_valid (front ++ part) c rest
    rw [String.utf8Len_append] at hend hget hnext
    obtain ⟨hfirst, hpast, hdone⟩ := next_singleton sep
    rw [String.splitOnAux, if_neg hend, hget, hfirst, hnext, hpast, List.headD_cons]
    dsimp only
    by_cases hc : c = sep
    · -- the separator: `part` is done, and the next part begins behind it
      subst hc
      have hback : String.Pos.Raw.unoffsetBy ⟨utf8Len front + utf8Len part + c.utf8Size⟩ ⟨c.utf8Size⟩ =
          ⟨utf8Len front + utf8Len part⟩ := by
        rw [String.Pos.Raw.unoffsetBy, Nat.add_sub_cancel]
      have hih := ih (front ++ part ++ [c]) [] (.ofList part :: done)
      rw [List.append_nil, List.append_assoc, List.singleton_append] at hih
      simp only [String.utf8Len_append, String.utf8Len_cons, String.utf8Len_nil, Nat.add_zero, Nat.zero_add] at hih
      rw [if_pos (beq_self_eq_true c), if_pos hdone, hback, String.extract_of_valid, hih,
        List.splitOnPPrepend_cons_pos (p := (· == c)) (beq_self_eq_true c)]
      simp
    · have hback : String.Pos.Raw.unoffsetBy ⟨utf8Len front + utf8Len part⟩ 0 =
          ⟨utf8Len front + utf8Len part⟩ := rfl
      have hih := ih front (part ++ [c]) done
      rw [if_neg (by simpa using hc), hback, hnext, List.splitOnPPrepend_cons_neg (by simpa using hc)]
      simpa [String.utf8Len_append, Nat.add_assoc] using hih

end

/-- Splitting a text at a character is splitting the list of its characters. -/
theorem splitOn_singleton (text : String) (sep : Char) :
    text.splitOn (.singleton sep) = (text.toList.splitOn sep).map String.ofList := by
  have hne : ((String.singleton sep : String) == "") = false := by
    rw [beq_eq_false_iff_ne, Ne, ← String.toList_inj, String.toList_singleton]
    exact List.cons_ne_nil _ _
  have h := splitOnAux_singleton sep [] [] text.toList []
  rw [List.nil_append, List.nil_append, String.ofList_toList] at h
  rw [String.splitOn, hne]
  exact h

/-- Parts that do not have the character are found again in the text that joins them with it. -/
theorem splitOn_intercalate {sep : Char} {parts : List String} (h : ∀ part ∈ parts, sep ∉ part.toList)
    (hne : parts ≠ []) : ((String.singleton sep).intercalate parts).splitOn (.singleton sep) = parts := by
  have hsplit : ([sep].intercalate (parts.map String.toList)).splitOn sep = parts.map String.toList := by
    refine List.splitOn_intercalate sep (fun chars hchars => ?_) (by simpa using hne)
    obtain ⟨part, hpart, rfl⟩ := List.mem_map.1 hchars
    exact h part hpart
  rw [splitOn_singleton, String.toList_intercalate, String.toList_singleton, hsplit, List.map_map]
  exact List.map_id'' (fun part => String.ofList_toList) parts

/-- A text of parts begins with the first of them. -/
theorem exists_intercalate_cons (sep first : String) (rest : List String) :
    ∃ more, sep.intercalate (first :: rest) = first ++ more := by
  cases rest with
  | nil => exact ⟨"", by simp⟩
  | cons second rest => exact ⟨_, by rw [String.intercalate_cons_cons, String.append_assoc]⟩

theorem notMem_intercalate {c : Char} {sep : String} {parts : List String} (hsep : c ∉ sep.toList)
    (h : ∀ part ∈ parts, c ∉ part.toList) : c ∉ (sep.intercalate parts).toList := by
  induction parts with
  | nil => simp
  | cons part parts ih =>
    obtain ⟨hpart, hparts⟩ := List.forall_mem_cons.1 h
    cases parts with
    | nil => rwa [String.intercalate_singleton]
    | cons next parts =>
      rw [String.intercalate_cons_cons, String.toList_append, String.toList_append, List.mem_append, List.mem_append]
      exact not_or.2 ⟨not_or.2 ⟨hpart, hsep⟩, ih hparts⟩

/-! ## Lines -/

/-- The lines of a text: each of them ends in a line break. -/
def lines (text : String) : List String := (text.splitOn "\n").dropLast

theorem intercalate_concat_empty (parts : List String) :
    "\n".intercalate (parts ++ [""]) = String.join (parts.map (· ++ "\n")) := by
  induction parts with
  | nil => rfl
  | cons part parts ih =>
    have hne : parts ++ [""] ≠ [] := List.concat_ne_nil "" parts
    rw [List.cons_append, String.intercalate_cons_of_ne_nil hne, ih, List.map_cons, String.join_cons]

theorem intercalate_append_break {parts : List String} (hne : parts ≠ []) :
    "\n".intercalate parts ++ "\n" = String.join (parts.map (· ++ "\n")) := by
  rw [← intercalate_concat_empty, String.intercalate_append_of_ne_nil hne (List.cons_ne_nil _ _),
    String.intercalate_singleton, String.append_empty]

/-- What is written line by line is read line by line. -/
theorem lines_join {parts : List String} (h : ∀ part ∈ parts, '\n' ∉ part.toList) :
    lines (String.join (parts.map (· ++ "\n"))) = parts := by
  have hparts : ∀ part ∈ parts ++ [""], '\n' ∉ part.toList := List.forall_mem_append.2 ⟨h, by simp⟩
  have hsplit := splitOn_intercalate hparts (List.concat_ne_nil "" parts)
  rw [← intercalate_concat_empty, lines, show "\n" = String.singleton '\n' from rfl, hsplit,
    List.dropLast_concat]

end QueueBoard.Text
