import QueueBoard.Dashboard.Cluster
import QueueBoard.Proofs.Dashboard.Run
import QueueBoard.Proofs.Scalar.Rational
/-!
# Reloading

A load keeps the width, the palette and the count of pictures, and nothing else of the state before.
The count is never read, only counted on (`apply_shifted`). So two boards of one width and palette are
the same from a load of the same snapshot on, whatever is done afterwards, but for what they had counted
before (`load_forgets`).
-/

namespace QueueBoard

variable {α : Type}

namespace QueueDashboard

/-- The dashboard with some pictures more on its count. -/
def shifted (d : QueueDashboard α) (count : Nat) : QueueDashboard α :=
  { d with generation := d.generation + count }

section

variable [Scalar α]

theorem hover_shifted (d : QueueDashboard α) (count : Nat) (name : Option String) :
    (d.shifted count).hover name = (d.hover name).shifted count := by
  by_cases h : (d.hovered == name) = true
  · have hd : d.hover name = d := if_pos h
    rw [hd]
    exact if_pos h
  · have hd : d.hover name = recolorTree { d with hovered := name } := if_neg h
    rw [hd]
    exact if_neg h

variable [Trig α]

/-- A picture of the same state is the same picture, whatever its number. -/
theorem redraw_of_shifted {d e : QueueDashboard α} {count : Nat} (h : e = d.shifted count) :
    e.redraw = d.redraw.shifted count := by
  subst h
  have hcount : d.generation + count + 1 = d.generation + 1 + count := by omega
  change { d.redraw with generation := d.generation + count + 1 } = d.redraw.shifted count
  rw [hcount]
  rfl

theorem toggleFold_shifted (d : QueueDashboard α) (count : Nat) (name : String) :
    ((d.shifted count).toggleFold name).2 = (d.toggleFold name).2.shifted count := by
  by_cases h : d.tree.canFold name = true
  · have hs : (d.shifted count).tree.canFold name = true := h
    rw [toggleFold_of_canFold h, toggleFold_of_canFold hs]
    exact redraw_of_shifted rfl
  · have hs : ¬ (d.shifted count).tree.canFold name = true := h
    rw [toggleFold_of_not_canFold h, toggleFold_of_not_canFold hs]

/-- No operation reads the count. -/
theorem apply_shifted (d : QueueDashboard α) (count : Nat) (op : Operation α) :
    (d.shifted count).apply op = (d.apply op).shifted count := by
  have hqueue : ∀ p, (d.shifted count).queueAt p = d.queueAt p := fun _ => rfl
  cases op with
  | withPalette palette => exact redraw_of_shifted rfl
  | load records => exact redraw_of_shifted rfl
  | select name => exact redraw_of_shifted rfl
  | toggleFold name => exact d.toggleFold_shifted count name
  | redraw => exact redraw_of_shifted rfl
  | resize width =>
    by_cases h : Scalar.epsilon < Scalar.abs (width - d.width)
    · have hd : d.resize width = redraw { d with width } := if_pos h
      have hs : (d.shifted count).resize width = redraw { d.shifted count with width } := if_pos h
      rw [apply, apply, hd, hs]
      exact redraw_of_shifted rfl
    · have hd : d.resize width = d := if_neg h
      have hs : (d.shifted count).resize width = d.shifted count := if_neg h
      rw [apply, apply, hd, hs]
  | pointerMoved pointer =>
    simp only [apply, pointerMoved, hqueue, hover_shifted]
    rfl
  | pointerLeft =>
    simp only [apply, pointerLeft_eq, hover_shifted]
    rfl
  | click pointer =>
    simp only [apply, click, hqueue]
    split
    · rfl
    · exact redraw_of_shifted rfl
  | doubleClick pointer =>
    simp only [apply, doubleClick, hqueue]
    split
    · rfl
    · exact d.toggleFold_shifted count _

theorem foldl_apply_shifted (d : QueueDashboard α) (count : Nat) (ops : List (Operation α)) :
    ops.foldl apply (d.shifted count) = (ops.foldl apply d).shifted count :=
  List.foldl_hom (shifted · count) fun d op => d.apply_shifted count op

/-- The first picture of a snapshot. -/
def loaded (width : α) (palette : Palette) (records : List (QueueRecord α)) : QueueDashboard α :=
  load { width, palette, tooltip := .fresh, height := 0, scene := { width := 0, height := 0 } } records

/-- Width and palette are all that a load keeps, the count apart. -/
theorem load_eq_shifted (d : QueueDashboard α) (records : List (QueueRecord α)) :
    d.load records = (loaded d.width d.palette records).shifted d.generation := by
  have hcount : (loaded d.width d.palette records).generation + d.generation = d.generation + 1 :=
    Nat.add_comm 1 d.generation
  rw [shifted, hcount]
  rfl

end

end QueueDashboard

namespace ClusterDashboard

/-- One use of a cluster dashboard. -/
inductive Operation (α : Type) where
  | load (metrics : ClusterMetrics α)
  | redraw
  | resize (width : α)
  | pointerMoved (pointer : Point α)
  | pointerLeft

/-- The dashboard with some pictures more on its count. -/
def shifted (d : ClusterDashboard α) (count : Nat) : ClusterDashboard α :=
  { d with generation := d.generation + count }

section

variable [Scalar α] [Trig α]

/-- The state after an operation. -/
def apply (d : ClusterDashboard α) : Operation α → ClusterDashboard α
  | .load metrics => d.load metrics
  | .redraw => d.redraw
  | .resize width => d.resize width
  | .pointerMoved pointer => d.pointerMoved pointer
  | .pointerLeft => d.pointerLeft

theorem redraw_of_shifted {d e : ClusterDashboard α} {count : Nat} (h : e = d.shifted count) :
    e.redraw = d.redraw.shifted count := by
  subst h
  have hcount : d.generation + count + 1 = d.generation + 1 + count := by omega
  change { d.redraw with generation := d.generation + count + 1 } = d.redraw.shifted count
  rw [hcount]
  rfl

/-- No operation reads the count. -/
theorem apply_shifted (d : ClusterDashboard α) (count : Nat) (op : Operation α) :
    (d.shifted count).apply op = (d.apply op).shifted count := by
  cases op with
  | load metrics => exact redraw_of_shifted rfl
  | redraw => exact redraw_of_shifted rfl
  | resize width =>
    by_cases h : Scalar.epsilon < Scalar.abs (width - d.width)
    · have hd : d.resize width = redraw { d with width } := if_pos h
      have hs : (d.shifted count).resize width = redraw { d.shifted count with width } := if_pos h
      rw [apply, apply, hd, hs]
      exact redraw_of_shifted rfl
    · have hd : d.resize width = d := if_neg h
      have hs : (d.shifted count).resize width = d.shifted count := if_neg h
      rw [apply, apply, hd, hs]
  | pointerMoved pointer => rfl
  | pointerLeft => rfl

theorem foldl_apply_shifted (d : ClusterDashboard α) (count : Nat) (ops : List (Operation α)) :
    ops.foldl apply (d.shifted count) = (ops.foldl apply d).shifted count :=
  List.foldl_hom (shifted · count) fun d op => d.apply_shifted count op

/-- The first picture of some counters. -/
def loaded (width : α) (metrics : ClusterMetrics α) : ClusterDashboard α :=
  load { width, metrics, tooltip := .fresh, height := 0, scene := { width := 0, height := 0 } } metrics

/-- The width is all that a load keeps, the count apart. -/
theorem load_eq_shifted (d : ClusterDashboard α) (metrics : ClusterMetrics α) :
    d.load metrics = (loaded d.width metrics).shifted d.generation := by
  have hcount : (loaded d.width metrics).generation + d.generation = d.generation + 1 :=
    Nat.add_comm 1 d.generation
  rw [shifted, hcount]
  rfl

end

end ClusterDashboard

/-- **A reload forgets the past.** Two boards of one width and palette, whatever happened to them
before, are equal after a load of the same snapshot and after anything done to both from then on, in
every field but the count of pictures; and of these they count equally many from the load on. -/
theorem load_forgets [Scalar α] [Trig α] (records : List (QueueRecord α)) (metrics : ClusterMetrics α) :
    (∀ d e : QueueDashboard α, d.width = e.width → d.palette = e.palette →
      ∀ after : List (QueueDashboard.Operation α),
        let d' := after.foldl QueueDashboard.apply (d.load records)
        let e' := after.foldl QueueDashboard.apply (e.load records)
        d' = { e' with generation := d'.generation } ∧
          d'.generation + e.generation = e'.generation + d.generation) ∧
    ∀ d e : ClusterDashboard α, d.width = e.width →
      ∀ after : List (ClusterDashboard.Operation α),
        let d' := after.foldl ClusterDashboard.apply (d.load metrics)
        let e' := after.foldl ClusterDashboard.apply (e.load metrics)
        d' = { e' with generation := d'.generation } ∧
          d'.generation + e.generation = e'.generation + d.generation := by
  constructor
  · intro d e hwidth hpalette after d' e'
    have hd : d' = (after.foldl QueueDashboard.apply
        (QueueDashboard.loaded e.width e.palette records)).shifted d.generation := by
      rw [← QueueDashboard.foldl_apply_shifted, ← hwidth, ← hpalette, ← d.load_eq_shifted]
    have he : e' = (after.foldl QueueDashboard.apply
        (QueueDashboard.loaded e.width e.palette records)).shifted e.generation := by
      rw [← QueueDashboard.foldl_apply_shifted, ← e.load_eq_shifted]
    rw [hd, he]
    exact ⟨rfl, Nat.add_right_comm _ _ _⟩
  · intro d e hwidth after d' e'
    have hd : d' = (after.foldl ClusterDashboard.apply
        (ClusterDashboard.loaded e.width metrics)).shifted d.generation := by
      rw [← ClusterDashboard.foldl_apply_shifted, ← hwidth, ← d.load_eq_shifted]
    have he : e' = (after.foldl ClusterDashboard.apply
        (ClusterDashboard.loaded e.width metrics)).shifted e.generation := by
      rw [← ClusterDashboard.foldl_apply_shifted, ← e.load_eq_shifted]
    rw [hd, he]
    exact ⟨rfl, Nat.add_right_comm _ _ _⟩

/-- A board with a folded root, a selection, a hovered queue and another snapshot, and one without any:
after a load and a move of the pointer they show the same. -/
theorem load_forgets_folds :
    letI : Trig ℚ := .rational
    let old : List (QueueRecord ℚ) :=
      [{ QueueRecord.named "root" with children := ["a"] }, QueueRecord.named "a"]
    let records : List (QueueRecord ℚ) := [QueueRecord.named "root"]
    let d := QueueDashboard.run 1200
      [.load old, .select "a", .pointerMoved ⟨20, 20⟩, .toggleFold "root"]
    let e := QueueDashboard.new 1200
    d.width = e.width ∧ d.palette = e.palette ∧ d.folded.names = ["root"] ∧ d.hovered = some "root" ∧
      (d.load records).pointerMoved ⟨20, 20⟩ =
        { (e.load records).pointerMoved ⟨20, 20⟩ with
          generation := ((d.load records).pointerMoved ⟨20, 20⟩).generation } := by
  let trig : Trig ℚ := .rational
  intro old records d e
  have hwidth : d.width = e.width := by decide +kernel
  have hpalette : d.palette = e.palette := by decide +kernel
  refine ⟨hwidth, hpalette, by decide +kernel, by decide +kernel, ?_⟩
  exact ((load_forgets records .zero).1 d e hwidth hpalette [.pointerMoved ⟨20, 20⟩]).1

end QueueBoard
