import QueueBoard.Proofs.Json.Induction
import Mathlib.Data.String.Basic
/-!
# Members of values that were read

A value that was read has the members of its objects sorted by name, each name once, at any depth
(`parse_sorted`). So a name tells a member.
-/

namespace QueueBoard.Json

/-- Sorted by name, each name once. -/
def Ascending (members : List (String × Json)) : Prop := members.Pairwise fun a b => a.1 < b.1

/-- Every object inside has its members sorted by name, each name once. -/
inductive Sorted : Json → Prop
  | null : Sorted .null
  | boolean (b : Bool) : Sorted (.boolean b)
  | number (n : Number) : Sorted (.number n)
  | string (s : String) : Sorted (.string s)
  | array {items : List Json} : (∀ item ∈ items, Sorted item) → Sorted (.array items)
  | object {members : List (String × Json)} : Ascending members → (∀ m ∈ members, Sorted m.2) →
      Sorted (.object members)

theorem Ascending.nodup {members : List (String × Json)} (h : Ascending members) :
    (members.map Prod.fst).Nodup := by
  rw [List.Nodup, List.pairwise_map]
  exact h.imp ne_of_lt

/-! ## Sorting -/

theorem mem_insertMember {name : String} {value : Json} {members : List (String × Json)}
    {m : String × Json} (h : m ∈ insertMember name value members) : m = (name, value) ∨ m ∈ members := by
  induction members with
  | nil => exact Or.inl (List.mem_singleton.1 h)
  | cons first rest ih =>
    obtain ⟨n, v⟩ := first
    rw [insertMember] at h
    split at h
    · rename_i hn
      rw [beq_iff_eq] at hn
      rcases List.mem_cons.1 h with rfl | h
      · exact Or.inl (by rw [hn])
      · exact Or.inr (List.mem_cons_of_mem _ h)
    · split at h
      · exact List.mem_cons.1 h
      · rcases List.mem_cons.1 h with rfl | h
        · exact Or.inr List.mem_cons_self
        · exact (ih h).imp_right (List.mem_cons_of_mem _)

theorem Ascending.insertMember {name : String} {value : Json} {members : List (String × Json)}
    (h : Ascending members) : Ascending (insertMember name value members) := by
  induction members with
  | nil => exact List.pairwise_singleton _ _
  | cons first rest ih =>
    obtain ⟨n, v⟩ := first
    obtain ⟨hfirst, hrest⟩ := List.pairwise_cons.1 h
    rw [Json.insertMember]
    split
    · exact List.pairwise_cons.2 ⟨hfirst, hrest⟩
    · rename_i hne
      split
      · rename_i hlt
        refine List.pairwise_cons.2 ⟨fun m hm => ?_, h⟩
        rcases List.mem_cons.1 hm with rfl | hm
        · exact hlt
        · exact hlt.trans (hfirst m hm)
      · rename_i hnlt
        have hlt : n < name := lt_of_le_of_ne (not_lt.1 hnlt) fun e => hne (beq_iff_eq.2 e.symm)
        refine List.pairwise_cons.2 ⟨fun m hm => ?_, ih hrest⟩
        rcases mem_insertMember hm with rfl | hm
        · exact hlt
        · exact hfirst m hm

theorem sortMembers_ascending (members : List (String × Json)) : Ascending (sortMembers members) := by
  have fold : ∀ (ms sorted : List (String × Json)), Ascending sorted →
      Ascending (ms.foldl (fun sorted member => insertMember member.1 member.2 sorted) sorted) := by
    intro ms
    induction ms with
    | nil => exact fun _ h => h
    | cons m rest ih => exact fun _ h => ih _ h.insertMember
  exact fold members [] List.Pairwise.nil

theorem mem_sortMembers {members : List (String × Json)} {m : String × Json}
    (h : m ∈ sortMembers members) : m ∈ members := by
  have fold : ∀ (ms sorted : List (String × Json)),
      m ∈ ms.foldl (fun sorted member => insertMember member.1 member.2 sorted) sorted →
        m ∈ sorted ∨ m ∈ ms := by
    intro ms
    induction ms with
    | nil => exact fun _ h => Or.inl h
    | cons first rest ih =>
      intro sorted h
      rcases ih _ h with h | h
      · rcases mem_insertMember h with rfl | h
        · exact Or.inr List.mem_cons_self
        · exact Or.inl h
      · exact Or.inr (List.mem_cons_of_mem _ h)
  simpa using fold members [] h

theorem mem_insertMember_self (name : String) (value : Json) (members : List (String × Json)) :
    (name, value) ∈ insertMember name value members := by
  induction members with
  | nil => exact List.mem_cons_self
  | cons first rest ih =>
    obtain ⟨n, v⟩ := first
    rw [insertMember]
    split
    · rename_i hn
      rw [beq_iff_eq] at hn
      rw [hn]
      exact List.mem_cons_self
    · split
      · exact List.mem_cons_self
      · exact List.mem_cons_of_mem _ ih

theorem mem_insertMember_of_ne {name : String} {value : Json} {members : List (String × Json)}
    {m : String × Json} (hm : m ∈ members) (hne : m.1 ≠ name) : m ∈ insertMember name value members := by
  induction members with
  | nil => cases hm
  | cons first rest ih =>
    obtain ⟨n, v⟩ := first
    rw [insertMember]
    split
    · rename_i hn
      rw [beq_iff_eq] at hn
      rcases List.mem_cons.1 hm with rfl | hm
      · exact absurd hn.symm hne
      · exact List.mem_cons_of_mem _ hm
    · split
      · exact List.mem_cons_of_mem _ hm
      · rcases List.mem_cons.1 hm with rfl | hm
        · exact List.mem_cons_self
        · exact List.mem_cons_of_mem _ (ih hm)

/-- No member is lost if each name is given once. -/
theorem mem_sortMembers_of_nodup {members : List (String × Json)} (hn : (members.map Prod.fst).Nodup)
    {m : String × Json} (hm : m ∈ members) : m ∈ sortMembers members := by
  have fold : ∀ (ms sorted : List (String × Json)), (ms.map Prod.fst).Nodup →
      (m ∈ ms ∨ m ∈ sorted ∧ m.1 ∉ ms.map Prod.fst) →
        m ∈ ms.foldl (fun sorted member => insertMember member.1 member.2 sorted) sorted := by
    intro ms
    induction ms with
    | nil =>
      rintro sorted - (h | ⟨h, -⟩)
      · cases h
      · exact h
    | cons first rest ih =>
      intro sorted hn h
      obtain ⟨hout, hrest⟩ := List.nodup_cons.1 hn
      refine ih _ hrest ?_
      rcases h with h | ⟨h, hfree⟩
      · rcases List.mem_cons.1 h with rfl | h
        · exact Or.inr ⟨mem_insertMember_self _ _ _, hout⟩
        · exact Or.inl h
      · obtain ⟨hne, hfree⟩ := not_or.1 (mt List.mem_cons.2 hfree)
        exact Or.inr ⟨mem_insertMember_of_ne h hne, hfree⟩
  exact fold members [] hn (Or.inl hm)

/-! ## Reading -/

/-- **A value that was read has its members sorted by name, each name once.** -/
theorem parse_sorted {text : String} {value : Json} (h : parse text = some value) : Sorted value :=
  parse_induction .null .boolean .string (fun {_ _ n _} _ => .number n) (fun _ => .array)
    (fun members hmembers => .object (sortMembers_ascending members) fun m hm =>
      hmembers m (mem_sortMembers hm)) h

end QueueBoard.Json
