import QueueBoard.Proofs.Queue.Fold
import Mathlib.Algebra.Ring.Parity
import Mathlib.Data.List.Sort
import Mathlib.Data.String.Basic
/-!
# Fold sets

Every fold set that arises lists its names in order (`Ordered`), so two with the same names are the
same (`Ordered.eq_of_contains`). Toggling some names flips those that occur an odd number of times
(`contains_toggles`), so their order does not matter, and toggling a name twice undoes itself.
-/

namespace QueueBoard.FoldedSet

variable {F G : FoldedSet} {name : String}

/-- The names stand in order, each once. -/
def Ordered (F : FoldedSet) : Prop := F.names.Pairwise (· < ·)

theorem insertName_pairwise {names : List String} (h : names.Pairwise (· < ·)) :
    (insertName name names).Pairwise (· < ·) := by
  induction names with
  | nil => exact List.pairwise_singleton _ _
  | cons n rest ih =>
    obtain ⟨hfirst, hrest⟩ := List.pairwise_cons.1 h
    rw [insertName]
    by_cases heq : (name == n) = true
    · rw [if_pos heq]
      exact h
    · rw [if_neg heq]
      by_cases hlt : name < n
      · rw [if_pos hlt]
        refine List.pairwise_cons.2 ⟨fun m hm => ?_, h⟩
        rcases List.mem_cons.1 hm with rfl | hm
        · exact hlt
        · exact hlt.trans (hfirst m hm)
      · rw [if_neg hlt]
        have hgt : n < name := lt_of_le_of_ne (not_lt.1 hlt) fun e => heq (beq_iff_eq.2 e.symm)
        refine List.pairwise_cons.2 ⟨fun m hm => ?_, ih hrest⟩
        rcases (mem_insertName rest).1 hm with rfl | hm
        · exact hgt
        · exact hfirst m hm

theorem ordered_empty : Ordered {} := List.Pairwise.nil

theorem Ordered.toggle (h : F.Ordered) (name : String) : (F.toggle name).Ordered := by
  unfold FoldedSet.toggle
  split
  · exact List.Pairwise.filter _ h
  · exact insertName_pairwise h

theorem Ordered.eq_of_contains (hF : F.Ordered) (hG : G.Ordered)
    (h : ∀ name, F.contains name = G.contains name) : F = G := by
  have hmem : ∀ name, name ∈ F.names ↔ name ∈ G.names := by
    intro name
    have := h name
    rwa [Bool.eq_iff_iff, contains, contains, List.contains_iff_mem, List.contains_iff_mem] at this
  have hperm : F.names.Perm G.names :=
    (List.perm_ext_iff_of_nodup (hF.imp ne_of_lt) (hG.imp ne_of_lt)).2 hmem
  have hnames : F.names = G.names :=
    hperm.eq_of_pairwise (fun _ _ _ _ hab hba => absurd hba (lt_asymm hab)) hF hG
  cases F
  cases G
  exact congrArg FoldedSet.mk hnames

/-! ## The set of some names -/

theorem foldl_insert_spec (names : List String) (h : F.Ordered) :
    (names.foldl insert F).Ordered ∧
      ∀ name, (names.foldl insert F).contains name = true ↔ name ∈ names ∨ F.contains name = true := by
  induction names generalizing F with
  | nil => exact ⟨h, fun name => by simp⟩
  | cons n rest ih =>
    obtain ⟨hordered, hcontains⟩ := ih (F := F.insert n) (insertName_pairwise h)
    refine ⟨hordered, fun name => ?_⟩
    rw [List.foldl_cons, hcontains, contains_insert]
    simp only [Bool.or_eq_true, beq_iff_eq, List.mem_cons]
    tauto

theorem ordered_ofList (names : List String) : (ofList names).Ordered :=
  (foldl_insert_spec names ordered_empty).1

theorem contains_ofList {names : List String} : (ofList names).contains name = true ↔ name ∈ names := by
  rw [ofList, (foldl_insert_spec names ordered_empty).2]
  exact or_iff_left (nomatch ·)

/-! ## Toggling again and again -/

/-- The set after toggling some names in turn. -/
def toggles (F : FoldedSet) (names : List String) : FoldedSet := names.foldl toggle F

theorem Ordered.toggles (h : F.Ordered) (names : List String) : (F.toggles names).Ordered := by
  induction names generalizing F with
  | nil => exact h
  | cons n rest ih => exact ih (h.toggle n)

/-- A name is flipped if it is toggled an odd number of times. -/
theorem contains_toggles (F : FoldedSet) (names : List String) (name : String) :
    (F.toggles names).contains name = F.contains name ↔ Even (names.count name) := by
  induction names generalizing F with
  | nil => simp [FoldedSet.toggles]
  | cons n rest ih =>
    have hrest := ih (F.toggle n)
    rw [contains_toggle] at hrest
    change ((F.toggle n).toggles rest).contains name = F.contains name ↔ _
    by_cases h : name = n
    · subst h
      rw [List.count_cons_self, Nat.even_add_one, ← hrest]
      cases ((F.toggle name).toggles rest).contains name <;> cases F.contains name <;> simp
    · have hne : (name == n) = false := beq_eq_false_iff_ne.2 h
      rw [List.count_cons_of_ne (Ne.symm h), ← hrest, hne, Bool.bne_false]

/-- Names toggled equally often up to an even number flip the same. -/
theorem Ordered.toggles_eq (h : F.Ordered) {names names' : List String}
    (hparity : ∀ name, Even (names.count name) ↔ Even (names'.count name)) :
    F.toggles names = F.toggles names' := by
  refine (h.toggles names).eq_of_contains (h.toggles names') fun name => ?_
  have hiff := (contains_toggles F names name).trans
    ((hparity name).trans (contains_toggles F names' name).symm)
  revert hiff
  cases (F.toggles names).contains name <;> cases (F.toggles names').contains name <;>
    cases F.contains name <;> simp

/-- Toggling every name of a set once makes up the set. -/
theorem Ordered.toggles_names (h : G.Ordered) : ({} : FoldedSet).toggles G.names = G := by
  refine (ordered_empty.toggles G.names).eq_of_contains h fun name => ?_
  have hiff := contains_toggles {} G.names name
  have hempty : ({} : FoldedSet).contains name = false := rfl
  rw [hempty, List.Nodup.count (h.imp ne_of_lt)] at hiff
  by_cases hmem : name ∈ G.names
  · rw [if_pos hmem] at hiff
    have hfolded : G.contains name = true := List.contains_iff_mem.2 hmem
    rw [hfolded]
    simpa using hiff
  · rw [if_neg hmem] at hiff
    have hunfolded : G.contains name = false := by simpa [contains] using hmem
    rw [hunfolded, hiff]
    exact Even.zero

end QueueBoard.FoldedSet
