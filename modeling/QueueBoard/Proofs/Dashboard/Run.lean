import QueueBoard.Dashboard.Queues
/-!
# Runs of the queue dashboard

The ways to use a dashboard as data, and the states they lead to. An operation either draws the
picture anew or only lets the pointer do its work (`apply_cases`); what both keep is kept by every
run (`run_induction`).
-/

namespace QueueBoard.QueueDashboard

/-- One use of a dashboard. -/
inductive Operation (α : Type) where
  | withPalette (palette : Palette)
  | load (records : List (QueueRecord α))
  | select (name : String)
  | toggleFold (name : String)
  | redraw
  | resize (width : α)
  | pointerMoved (pointer : Point α)
  | pointerLeft
  | click (pointer : Point α)
  | doubleClick (pointer : Point α)

variable {α : Type} [Scalar α]

theorem hover_self (d : QueueDashboard α) : d.hover d.hovered = d := by simp [hover]

/-- Hovering is seen in the mark and in the scene alone. -/
theorem hover_frame (d : QueueDashboard α) (name : Option String) :
    d.hover name = { d with hovered := name, scene := (d.hover name).scene } := by
  unfold hover
  by_cases h : (d.hovered == name) = true
  · rw [if_pos h, ← beq_iff_eq.1 h]
  · rw [if_neg h]
    rfl

/-- The pointer takes the mark and the tooltip with it. -/
theorem pointerLeft_eq (d : QueueDashboard α) :
    d.pointerLeft = { d.hover none with tooltip := d.tooltip.leave } := by
  unfold pointerLeft hover
  by_cases h : d.hovered == none
  · simp [h]
  · simp only [h]
    rfl

variable [Trig α]

/-- The state after an operation. -/
def apply (d : QueueDashboard α) : Operation α → QueueDashboard α
  | .withPalette palette => d.withPalette palette
  | .load records => d.load records
  | .select name => d.select name
  | .toggleFold name => (d.toggleFold name).2
  | .redraw => d.redraw
  | .resize width => d.resize width
  | .pointerMoved pointer => d.pointerMoved pointer
  | .pointerLeft => d.pointerLeft
  | .click pointer => (d.click pointer).2
  | .doubleClick pointer => (d.doubleClick pointer).2

/-- The state of a new dashboard after some operations. -/
def run (width : α) (ops : List (Operation α)) : QueueDashboard α := ops.foldl apply (new width)

theorem run_append (width : α) (ops more : List (Operation α)) :
    run width (ops ++ more) = more.foldl apply (run width ops) := List.foldl_append

theorem toggleFold_of_canFold {d : QueueDashboard α} {name : String} (h : d.tree.canFold name = true) :
    d.toggleFold name = (true, redraw { d with folded := d.folded.toggle name }) := if_pos h

theorem toggleFold_of_not_canFold {d : QueueDashboard α} {name : String} (h : ¬ d.tree.canFold name = true) :
    d.toggleFold name = (false, d) := if_neg h

/-- Toggling draws the picture anew or does nothing. -/
theorem toggleFold_cases (d : QueueDashboard α) (name : String) :
    (d.toggleFold name).2 = redraw { d with folded := d.folded.toggle name } ∨ (d.toggleFold name).2 = d := by
  unfold toggleFold
  split
  · exact Or.inl rfl
  · exact Or.inr rfl

/-- What an operation can do: draw some state anew, or hover and show a tooltip. -/
theorem apply_cases (d : QueueDashboard α) (op : Operation α) :
    (∃ e : QueueDashboard α, d.apply op = e.redraw ∧ e.generation = d.generation) ∨
      ∃ name tooltip, d.apply op = { d.hover name with tooltip } := by
  have same : ∀ e : QueueDashboard α, e = d → ∃ name tooltip, e = { d.hover name with tooltip } :=
    fun e he => ⟨d.hovered, d.tooltip, by rw [he, hover_self]⟩
  have toggled : ∀ name : String,
      (∃ e : QueueDashboard α, (d.toggleFold name).2 = e.redraw ∧ e.generation = d.generation) ∨
        ∃ name' tooltip, (d.toggleFold name).2 = { d.hover name' with tooltip } := by
    intro name
    rcases d.toggleFold_cases name with h | h
    · exact Or.inl ⟨_, h, rfl⟩
    · exact Or.inr (same _ h)
  cases op with
  | withPalette palette => exact Or.inl ⟨_, rfl, rfl⟩
  | load records => exact Or.inl ⟨_, rfl, rfl⟩
  | select name => exact Or.inl ⟨_, rfl, rfl⟩
  | toggleFold name => exact toggled name
  | redraw => exact Or.inl ⟨d, rfl, rfl⟩
  | resize width =>
    simp only [apply, resize]
    split
    · exact Or.inl ⟨_, rfl, rfl⟩
    · exact Or.inr (same d rfl)
  | pointerMoved pointer => exact Or.inr ⟨d.queueAt pointer, _, rfl⟩
  | pointerLeft => exact Or.inr ⟨none, _, d.pointerLeft_eq⟩
  | click pointer =>
    simp only [apply, click]
    split
    · exact Or.inr (same d rfl)
    · exact Or.inl ⟨_, rfl, rfl⟩
  | doubleClick pointer =>
    simp only [apply, doubleClick]
    split
    · exact Or.inr (same d rfl)
    · exact toggled _

/-- What a new dashboard has and every operation keeps, every run keeps. -/
theorem run_induction {P : QueueDashboard α → Prop} (width : α) (hnew : P (new width))
    (hstep : ∀ d op, P d → P (d.apply op)) (ops : List (Operation α)) : P (run width ops) := by
  unfold run
  suffices ∀ d, P d → P (ops.foldl apply d) from this _ hnew
  induction ops with
  | nil => exact fun d h => h
  | cons op ops ih => exact fun d h => ih _ (hstep d op h)

end QueueBoard.QueueDashboard
