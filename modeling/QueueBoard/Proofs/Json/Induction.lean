import QueueBoard.Json.Reader
/-!
# Induction over values that are read

What holds of every value without inner ones, and of arrays and objects with that of what is inside, holds of
every value that is read (`parse_induction`).
-/

namespace QueueBoard.Json

variable {P : Json → Prop}

section Readers

variable {read : List Char → Option (Json × List Char)}
  (hread : ∀ {text rest : List Char} {value : Json}, read text = some (value, rest) → P value)
include hread

theorem readItems_forall {fuel : Nat} {text rest : List Char} {items : List Json}
    (h : readItems read fuel text = some (items, rest)) : ∀ item ∈ items, P item := by
  induction fuel generalizing text rest items with
  | zero => cases h
  | succ fuel ih =>
    obtain ⟨⟨item, mid⟩, hitem, h⟩ := Option.bind_eq_some_iff.1 h
    dsimp only at h
    split at h
    · cases h
      simpa using hread hitem
    · obtain ⟨⟨more, rest'⟩, hmore, h⟩ := Option.bind_eq_some_iff.1 h
      cases h
      exact List.forall_mem_cons.2 ⟨hread hitem, ih hmore⟩
    · cases h

theorem readMembers_forall {fuel : Nat} {text rest : List Char} {members : List (String × Json)}
    (h : readMembers read fuel text = some (members, rest)) : ∀ m ∈ members, P m.2 := by
  induction fuel generalizing text rest members with
  | zero => cases h
  | succ fuel ih =>
    rw [readMembers] at h
    split at h
    · obtain ⟨⟨name, mid⟩, -, h⟩ := Option.bind_eq_some_iff.1 h
      dsimp only at h
      split at h
      · obtain ⟨⟨value, after⟩, hvalue, h⟩ := Option.bind_eq_some_iff.1 h
        dsimp only at h
        split at h
        · cases h
          simpa using hread hvalue
        · obtain ⟨⟨more, rest'⟩, hmore, h⟩ := Option.bind_eq_some_iff.1 h
          cases h
          exact List.forall_mem_cons.2 ⟨hread hvalue, ih hmore⟩
        · cases h
      · cases h
    · cases h

end Readers

variable (hnull : P .null) (hboolean : ∀ b, P (.boolean b)) (hstring : ∀ s, P (.string s))
  (hnumber : ∀ {negative text n rest}, readNumber negative text = some (n, rest) → P (.number n))
  (harray : ∀ items, (∀ item ∈ items, P item) → P (.array items))
  (hobject : ∀ members, (∀ m ∈ members, P m.2) → P (.object (sortMembers members)))
include hnull hboolean hstring hnumber harray hobject

theorem readValue_induction {limit levels : Nat} {text rest : List Char} {value : Json}
    (h : readValue limit levels text = some (value, rest)) : P value := by
  induction levels using Nat.strongRecOn generalizing text rest value with
  | ind levels ih =>
    rw [readValue.eq_def] at h
    dsimp only at h
    split at h
    · cases h
      exact hnull
    · cases h
      exact hboolean true
    · cases h
      exact hboolean false
    · obtain ⟨⟨s, after⟩, -, h⟩ := Option.map_eq_some_iff.1 h
      cases h
      exact hstring s
    · split at h
      · cases h
      · split at h
        · cases h
          exact harray [] (by simp)
        · obtain ⟨⟨items, after⟩, hitems, h⟩ := Option.map_eq_some_iff.1 h
          cases h
          exact harray items (readItems_forall (ih _ (Nat.lt_succ_self _)) hitems)
    · split at h
      · cases h
      · split at h
        · cases h
          exact hobject [] (by simp)
        · obtain ⟨⟨members, after⟩, hmembers, h⟩ := Option.map_eq_some_iff.1 h
          cases h
          exact hobject members (readMembers_forall (ih _ (Nat.lt_succ_self _)) hmembers)
    · obtain ⟨⟨n, after⟩, hn, h⟩ := Option.map_eq_some_iff.1 h
      cases h
      exact hnumber hn
    · obtain ⟨⟨n, after⟩, hn, h⟩ := Option.map_eq_some_iff.1 h
      cases h
      exact hnumber hn

/-- **Induction over values that are read.** -/
theorem parse_induction {text : String} {value : Json} (h : parse text = some value) : P value := by
  obtain ⟨⟨v, rest⟩, hread, h⟩ := Option.bind_eq_some_iff.1 h
  dsimp only at h
  split at h
  · cases h
    exact readValue_induction hnull hboolean hstring hnumber harray hobject hread
  · cases h

end QueueBoard.Json
