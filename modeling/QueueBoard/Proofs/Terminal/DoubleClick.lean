import QueueBoard.Proofs.Dashboard.Click
import QueueBoard.Proofs.Terminal.Cells
import QueueBoard.Proofs.Terminal.Press
/-!
# Double clicks on the terminal

In exact arithmetic. The center of the cell that shows a point is at most half a cell away from it
(`Viewport.toScene_of_toCell`), and half a cell is less than the radius of a queue's circle. So a press on
the cell that shows a visible queue means this queue, whatever the first of two presses does to the picture
(`QueuesScreen.run_double_press`).
-/

namespace QueueBoard

namespace Terminal

/-- The center of the cell that shows a point lies in any circle of a queue around the point. -/
theorem Viewport.near_of_toCell {v : Viewport ℚ} {area : Area} (hfits : area.Fits) {p : Point ℚ}
    {column row : Nat} (h : v.toCell area p = some (column, row)) :
    ∃ q, v.toScene area column row = some q ∧
      (q.x - p.x) ^ 2 + (q.y - p.y) ^ 2 ≤ nodeRadius ^ 2 := by
  obtain ⟨q, hq, hx, hy⟩ := toScene_of_toCell hfits h
  have hradius : (nodeRadius : ℚ) = 10 := rfl
  refine ⟨q, hq, ?_⟩
  rw [hradius]
  linarith [sq_le_sq' (neg_le_of_abs_le hx) (le_of_abs_le hx), sq_le_sq' (neg_le_of_abs_le hy) (le_of_abs_le hy)]

end Terminal

/-! ## The queue under two clicks -/

namespace QueueDashboard

section

variable {α : Type} [Scalar α] [Trig α]

@[simp] theorem toggleFold_selected (d : QueueDashboard α) (name : String) :
    (d.toggleFold name).2.selected = d.selected := by
  rcases d.toggleFold_cases name with h | h <;> rw [h]
  rfl

@[simp] theorem toggleFold_tree (d : QueueDashboard α) (name : String) :
    (d.toggleFold name).2.tree = d.tree := by
  rcases d.toggleFold_cases name with h | h <;> rw [h]
  rfl

theorem toggleFold_folded (d : QueueDashboard α) (name : String) :
    (d.toggleFold name).2.folded = if d.tree.canFold name then d.folded.toggle name else d.folded := by
  unfold toggleFold
  split <;> rfl

end

variable [Trig ℚ] {d : QueueDashboard ℚ} {row : PlacedNode ℚ}

/-- A visible queue can be folded if it has children. -/
theorem Fresh.canFold_row (h : Fresh d) (hl : d.tree.Linked) (hd : d.tree.Distinct)
    (hrow : row ∈ d.layout.rows) :
    ∃ queue, d.tree.get? row.id = some queue ∧ queue.name = row.name ∧
      d.tree.canFold row.name = queue.hasChildren := by
  rw [h.layout_eq] at hrow
  obtain ⟨queue, hqueue, hname⟩ := TreeLayout.node_of_mem_compute hl hrow
  refine ⟨queue, hqueue, hname.symm, ?_⟩
  rw [hname, QueueTree.canFold, QueueTree.byName?_of_get? hd hqueue, Option.any_some]

/-- A click on a circle and a double click there act on its queue: the click changes the picture, but not
its rows. -/
theorem Fresh.click_doubleClick (h : Fresh d) (hl : d.tree.Linked) (hrow : row ∈ d.layout.rows)
    {q : Point ℚ} (hq : (q.x - row.position.x) ^ 2 + (q.y - row.position.y) ^ 2 ≤ nodeRadius ^ 2) :
    (d.click q).2 = d.select row.name ∧
      ((d.click q).2.doubleClick q).2 = ((d.select row.name).toggleFold row.name).2 := by
  have hclick : (d.click q).2 = d.select row.name := by rw [click, h.queueAt_eq hl hrow hq]
  have hlayout : (d.select row.name).layout = d.layout := h.layout_eq.symm
  have hat : (d.select row.name).queueAt q = some row.name :=
    Fresh.queueAt_eq (redraw_fresh _) hl (hlayout ▸ hrow) hq
  exact ⟨hclick, by rw [hclick, doubleClick, hat]⟩

end QueueDashboard

namespace Terminal.QueuesScreen

open QueueDashboard (Fresh)

/-- Of two presses on a cell within the window, the first is a click and the second a double click, if the
press before them does not pair with the first. -/
theorem press_twice {α : Type} [Scalar α] [Trig α] {s : QueuesScreen α} {first second : Duration}
    {column row : Nat} {q : Point α} (hq : s.viewport.toScene s.canvas column row = some q)
    (hearlier : ∀ time, s.clicks.last = some (time, column, row) → s.clicks.window < first.nanos - time)
    (hwindow : second.nanos - first.nanos ≤ s.clicks.window) :
    let once := s.step (first, .press column row)
    once.dashboard = (s.dashboard.click q).2 ∧
      (once.step (second, .press column row)).dashboard = (once.dashboard.doubleClick q).2 := by
  intro once
  have honce : once = _ := step_press_single hq (ClickTracker.register_single hearlier)
  have htwice := step_press_double (s := once) (p := q) (by rw [honce]; exact hq)
    (ClickTracker.register_double (by rw [honce]; rfl) (by rw [honce]; exact hwindow))
  rw [htwice]
  exact ⟨by rw [honce]; rfl, rfl⟩

/-- What a double click on a visible queue does, of which the presses lead from `s` to `once` and on to
`twice`. -/
structure DoubleClicked {α : Type} (s once twice : QueuesScreen α) (node : PlacedNode α) : Prop where
  once_selected : once.dashboard.selected = some node.name
  once_folded : once.dashboard.folded = s.dashboard.folded
  selected : twice.dashboard.selected = some node.name
  tree : twice.dashboard.tree = s.dashboard.tree
  /-- The queue's fold flips, and no other; without children there is nothing to fold. -/
  folded : ∃ queue, s.dashboard.tree.get? node.id = some queue ∧ queue.name = node.name ∧
    (queue.children ≠ [] → ∀ name,
      twice.dashboard.folded.contains name = (s.dashboard.folded.contains name != (name == node.name))) ∧
    (queue.children = [] → twice.dashboard.folded = s.dashboard.folded)

/-- **A double click on the screen folds the queue.** After any inputs, wherever the picture is scrolled and
drawn: two presses on the cell that shows a visible queue, the second at most the window after the first,
select this queue and flip its fold, once. The press before them must not make a double click of the first. -/
theorem run_double_press [Trig ℚ] (start : Duration) (window : Nat) (inputs : List (Duration × Input ℚ))
    (viewport : Viewport ℚ) (area : Area) (hfits : area.Fits) (first second : Duration) (column row : Nat)
    (node : PlacedNode ℚ) (hnode : node ∈ (run start window inputs).dashboard.layout.rows)
    (hcell : viewport.toCell area node.position = some (column, row))
    (hearlier : ∀ time, (run start window inputs).clicks.last = some (time, column, row) →
      window < first.nanos - time)
    (hwindow : second.nanos - first.nanos ≤ window) :
    let s := { run start window inputs with viewport, canvas := area }
    let once := s.step (first, .press column row)
    DoubleClicked s once (once.step (second, .press column row)) node := by
  intro s once
  obtain ⟨q, hq, hnear⟩ := Viewport.near_of_toCell hfits hcell
  obtain ⟨ops, hrun, -⟩ := run_dashboard start window inputs
  obtain ⟨records, htree⟩ := QueueDashboard.run_tree (canvasWidth 80) ops
  rw [← hrun] at htree
  have hfresh : Fresh s.dashboard := run_fresh_dashboard start window inputs
  have hl : s.dashboard.tree.Linked := htree ▸ QueueTree.build_linked records
  have hd : s.dashboard.tree.Distinct := htree ▸ QueueTree.build_distinct records
  have hwindow_eq : s.clicks.window = window := run_window start window inputs
  obtain ⟨hclick, hdouble⟩ := hfresh.click_doubleClick hl hnode hnear
  obtain ⟨hfirst, hsecond⟩ := press_twice (s := s) hq (hwindow_eq ▸ hearlier) (hwindow_eq ▸ hwindow)
  have honce : once.dashboard = s.dashboard.select node.name := hfirst.trans hclick
  rw [hfirst, hdouble] at hsecond
  obtain ⟨queue, hqueue, hname, hcan⟩ := hfresh.canFold_row hl hd hnode
  have hfolded : (once.step (second, .press column row)).dashboard.folded =
      if queue.hasChildren then s.dashboard.folded.toggle node.name else s.dashboard.folded := by
    rw [hsecond, QueueDashboard.toggleFold_folded, ← hcan]
    rfl
  refine ⟨by rw [honce]; rfl, by rw [honce]; rfl, ?_, ?_, queue, hqueue, hname, fun hsome name => ?_,
    fun hnone => ?_⟩
  · rw [hsecond, QueueDashboard.toggleFold_selected]
    rfl
  · rw [hsecond, QueueDashboard.toggleFold_tree]
    rfl
  · rw [hfolded, if_pos (by simpa [QueueNode.hasChildren] using hsome), FoldedSet.contains_toggle]
  · rw [hfolded, if_neg (by simp [QueueNode.hasChildren, hnone])]

/-- The root is folded by two presses on its cell, half a second after another press there. -/
theorem run_double_press_root :
    letI : Trig ℚ := .rational
    let records : List (QueueRecord ℚ) := [{ QueueRecord.named "root" with children := ["a"] }, .named "a"]
    let inputs : List (Duration × Input ℚ) :=
      [(⟨0⟩, .action (.queuesLoaded records)), (⟨0⟩, .draw { width := 80, height := 24 } (.blank 80 24)),
        (⟨0⟩, .press 3 1)]
    let area : Area := { x := 1, y := 1, width := 78, height := 21 }
    let s := { run ⟨0⟩ 400 inputs with viewport := ⟨10⟩, canvas := area }
    let once := s.step (⟨500⟩, .press 3 1)
    let twice := once.step (⟨800⟩, .press 3 1)
    s.clicks.last = some (0, 3, 1) ∧ twice.dashboard.selected = some "root" ∧
      twice.dashboard.folded.contains "root" = true := by
  let trig : Trig ℚ := .rational
  intro records inputs area s once twice
  let root : PlacedNode ℚ :=
    { id := 0, name := "root", position := ⟨20, 20⟩, depth := 0, sequence := 0, folded := false
      hasChildren := true }
  have hroot : root ∈ (run ⟨0⟩ 400 inputs).dashboard.layout.rows := by decide +kernel
  have hlast : (run ⟨0⟩ 400 inputs).clicks.last = some (0, 3, 1) := by decide +kernel
  have hpresses : DoubleClicked s once twice root :=
    run_double_press ⟨0⟩ 400 inputs ⟨10⟩ area ⟨by decide, by decide⟩ ⟨500⟩ ⟨800⟩ 3 1 root hroot
      (by decide +kernel)
      (fun time htime => by
        cases hlast.symm.trans htime
        decide)
      (by decide)
  obtain ⟨queue, hqueue, -, hfold, -⟩ := hpresses.folded
  have hchildren : queue.children = [1] := by
    have hnode : (s.dashboard.tree.get? root.id).map (·.children) = some [1] := by decide +kernel
    rw [hqueue] at hnode
    exact Option.some.inj hnode
  refine ⟨by decide +kernel, hpresses.selected, ?_⟩
  rw [hfold (by rw [hchildren]; exact List.cons_ne_nil _ _) "root"]
  decide +kernel

end Terminal.QueuesScreen

end QueueBoard
