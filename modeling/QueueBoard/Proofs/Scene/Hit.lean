import QueueBoard.Scene
import Mathlib.Data.List.Basic
/-!
# What the pointer hits

The topmost element with a target decides. So nothing but what is in the picture is hit
(`exists_of_targetAt`), and where all targets under the pointer are the same one, that one is hit
(`targetAt_eq_some`).
-/

namespace QueueBoard.Scene

variable {α : Type} {s : Scene α}

theorem mem_elements {e : Element α} : e ∈ s.elements ↔ ∃ layer ∈ s.layers, e ∈ layer.elements := by
  simp [elements, List.mem_flatMap]

variable [Scalar α] [Trig α] {p : Point α} {target : Target α}

/-- The target on top among some elements in paint order. -/
def topmost (elements : List (Element α)) (p : Point α) : Option (Target α) :=
  (elements.reverse.find? fun e => e.target.isSome && e.shape.contains p).bind (·.target)

theorem targetAt_eq_topmost (s : Scene α) (p : Point α) : s.targetAt p = topmost s.elements p := rfl

theorem exists_of_topmost {elements : List (Element α)} (h : topmost elements p = some target) :
    ∃ e ∈ elements, e.target = some target ∧ e.shape.contains p = true := by
  obtain ⟨e, hhit, htarget⟩ := Option.bind_eq_some_iff.1 h
  have hmem := List.mem_of_find?_eq_some hhit
  have hunder := List.find?_some hhit
  simp only [Bool.and_eq_true] at hunder
  exact ⟨e, List.mem_reverse.1 hmem, htarget, hunder.2⟩

theorem exists_of_targetAt (h : s.targetAt p = some target) :
    ∃ e ∈ s.elements, e.target = some target ∧ e.shape.contains p = true := exists_of_topmost h

/-- What lies above decides, if it means anything there. -/
theorem topmost_append (below above : List (Element α)) (p : Point α) :
    topmost (below ++ above) p = (topmost above p).or (topmost below p) := by
  rw [topmost, List.reverse_append, List.find?_append]
  cases hhit : above.reverse.find? fun e => e.target.isSome && e.shape.contains p with
  | none => rw [Option.none_or, topmost, topmost, hhit, Option.bind_none, Option.none_or]
  | some e =>
    have hunder := List.find?_some hhit
    simp only [Bool.and_eq_true, Option.isSome_iff_exists] at hunder
    obtain ⟨⟨target, htarget⟩, -⟩ := hunder
    rw [Option.some_or, Option.bind_some, topmost, hhit, Option.bind_some, htarget, Option.some_or]

/-- If there is a target under the pointer and no other, it is hit. -/
theorem targetAt_eq_some (hsome : ∃ e ∈ s.elements, e.target = some target ∧ e.shape.contains p = true)
    (honly : ∀ e ∈ s.elements, ∀ other, e.target = some other → e.shape.contains p = true →
      other = target) :
    s.targetAt p = some target := by
  cases hhit : s.hit p with
  | none =>
    obtain ⟨e, he, htarget, hunder⟩ := hsome
    have hmiss := List.find?_eq_none.1 hhit e (List.mem_reverse.2 he)
    simp [htarget, hunder] at hmiss
  | some e =>
    have hmem : e ∈ s.elements := List.mem_reverse.1 (List.mem_of_find?_eq_some hhit)
    have hunder := List.find?_some hhit
    simp only [Bool.and_eq_true, Option.isSome_iff_exists] at hunder
    obtain ⟨⟨other, hother⟩, hcontains⟩ := hunder
    rw [targetAt, hhit, Option.bind_some, hother, honly e hmem other hother hcontains]

end QueueBoard.Scene
