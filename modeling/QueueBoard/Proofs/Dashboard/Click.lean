import QueueBoard.Proofs.Chart.Extent
import QueueBoard.Proofs.Dashboard.Elements
import QueueBoard.Proofs.Queue.Fold
import QueueBoard.Proofs.Queue.Picture
/-!
# Clicks on queues

In exact arithmetic. The circles and labels of a row keep to a band of their own (`band_of_contains`),
and no chart reaches left as far as the deepest circle (`Fresh.right_of_rows`). So a point on a queue's
circle means that queue, and clicks there act on it (`run_click`).
-/

namespace QueueBoard

variable {p : Point ℚ}

namespace TreeLayout

variable {tree : QueueTree ℚ} {F : FoldedSet} {row : PlacedNode ℚ}

theorem position_of_getElem? (hl : tree.Linked) {i : Nat} (h : (compute tree F).rows[i]? = some row) :
    row.position.x = 20 + 30 * (row.depth : ℚ) ∧ row.position.y = 20 + 30 * (i : ℚ) := by
  obtain ⟨node, -, hrow⟩ := compute_faithful hl i row h
  have hposition : row.position = nodePosition row.depth i := congrArg PlacedNode.position hrow
  rw [hposition]
  exact ⟨rfl, rfl⟩

end TreeLayout

namespace QueueDashboard

variable {d : QueueDashboard ℚ} {row : PlacedNode ℚ} {e : Element ℚ}

theorem near_of_within {q : Point ℚ} (h : (p.x - q.x) ^ 2 + (p.y - q.y) ^ 2 ≤ nodeRadius ^ 2) :
    |p.x - q.x| ≤ 10 ∧ |p.y - q.y| ≤ 10 := by
  have hradius : (nodeRadius : ℚ) = 10 := rfl
  rw [hradius] at h
  have hten : (0 : ℚ) ≤ 10 := by norm_num
  constructor
  · exact abs_le_of_sq_le_sq (by linarith [sq_nonneg (p.y - q.y)]) hten
  · exact abs_le_of_sq_le_sq (by linarith [sq_nonneg (p.x - q.x)]) hten

theorem labelWidth_nonneg {chart : PlannedChart ℚ} (h : chart ∈ d.chartPlan) {width : ℚ}
    (hbar : chart.kind = .bar width) : 0 ≤ width := by
  have hroom : (0 : ℚ) ≤ capacityLabelWidth := show (0 : ℚ) ≤ 60 by norm_num
  have hchildren : ∀ title nodes value, (queueDonut (α := ℚ) title nodes value).kind ≠ .bar width := by
    rintro title nodes value ⟨⟩
  unfold chartPlan at h
  split at h
  · cases h
  · unfold plan at h
    rcases List.mem_cons.1 h with rfl | h
    · split at hbar
      · exact absurd hbar (hchildren _ _ _)
      · cases hbar
        exact hroom
    · split at h
      · cases h
      · simp only [List.mem_cons, List.not_mem_nil, or_false] at h
        rcases h with rfl | rfl <;> exact absurd hbar (hchildren _ _ _)

section

variable [Trig ℚ]

/-- What shows a queue is as high up as its circle. -/
theorem band_of_contains (he : e ∈ d.nodeElements row) (hunder : e.shape.contains p = true) :
    |p.y - row.position.y| ≤ 10 := by
  rcases (mem_nodeElements he).2 with hshape | hshape
  · rw [hshape] at hunder
    exact (near_of_within (Scalar.within_rat.1 hunder).2).2
  · rw [hshape] at hunder
    have hbox : row.position.y + 5 - 12 ≤ p.y ∧ p.y ≤ row.position.y + 5 - 12 + 12 := by
      simp only [Shape.label, Shape.contains, Label.bounds, Bounds.contains, PlacedNode.labelAt,
        Point.offset, Bool.and_eq_true] at hunder
      exact ⟨of_decide_eq_true hunder.1.2, of_decide_eq_true hunder.2⟩
    rw [abs_le]
    constructor <;> linarith

/-- Charts begin right of every circle. -/
theorem Fresh.right_of_rows (h : Fresh d) (hl : d.tree.Linked) (hrow : row ∈ d.layout.rows) {i : Nat}
    {chart : PlannedChart ℚ} (hi : d.chartPlan[i]? = some chart)
    (he : e ∈ (chart.render (d.panel i) d.palette).elements) (htarget : e.target.isSome)
    (hunder : e.shape.contains p = true) : row.position.x + 10 < p.x := by
  have hleft : (d.panel i).x1 ≤ p.x :=
    PlannedChart.left_le_of_contains (Panel.place_ofGrid _ _ _)
      (fun _ => labelWidth_nonneg (List.mem_of_getElem? hi)) he htarget hunder
  have hbanner : d.layout.bannerWidth + 30 ≤ (d.panel i).x1 := Panel.left_le_place _ _ _
  have hdepth : (row.depth : ℚ) ≤ d.layout.maxDepth := by
    exact_mod_cast (TreeLayout.maxDepth_spec d.layout).1 row hrow
  have hwidth : d.layout.bannerWidth = (d.layout.maxDepth : ℚ) * 30 + 100 := rfl
  obtain ⟨j, hj⟩ := List.getElem?_of_mem hrow
  rw [h.layout_eq] at hj
  have hx := (TreeLayout.position_of_getElem? hl hj).1
  linarith

/-- **What is under a pointer on a circle is that queue.** -/
theorem Fresh.queueAt_eq (h : Fresh d) (hl : d.tree.Linked) (hrow : row ∈ d.layout.rows)
    (hp : (p.x - row.position.x) ^ 2 + (p.y - row.position.y) ^ 2 ≤ nodeRadius ^ 2) :
    d.queueAt p = some row.name := by
  obtain ⟨hx, hy⟩ := near_of_within hp
  have hunique : ∀ other ∈ d.layout.rows, |p.y - other.position.y| ≤ 10 → other = row := by
    intro other hother hband
    rw [h.layout_eq] at hother hrow
    obtain ⟨i, hi⟩ := List.getElem?_of_mem hrow
    obtain ⟨j, hj⟩ := List.getElem?_of_mem hother
    have hyi := (TreeLayout.position_of_getElem? hl hi).2
    have hyj := (TreeLayout.position_of_getElem? hl hj).2
    rw [abs_le] at hy hband
    -- rows are 30 apart, so two within 20 of one another are one
    have hij : (i : ℚ) < j + 1 := by linarith
    have hji : (j : ℚ) < i + 1 := by linarith
    have heq : i = j := by
      have : i < j + 1 := by exact_mod_cast hij
      have : j < i + 1 := by exact_mod_cast hji
      omega
    rw [heq, hj] at hi
    exact Option.some.inj hi
  have hhit : d.scene.targetAt p = some (.queue row.name) := by
    refine Scene.targetAt_eq_some ?_ ?_
    · obtain ⟨e, he, htarget, hshape⟩ := d.circle_mem row
      refine ⟨e, h.mem_elements_of_row hrow he, htarget, ?_⟩
      rw [hshape]
      exact Scalar.within_rat.2 ⟨show (0 : ℚ) ≤ 10 by norm_num, hp⟩
    · intro e he target htarget hunder
      rcases h.mem_elements he with hdrawn | ⟨other, hother, hnode⟩ | ⟨i, chart, hi, hchart⟩
      · rw [hdrawn.target] at htarget
        cases htarget
      · rw [(mem_nodeElements hnode).1] at htarget
        rw [← Option.some.inj htarget, hunique other hother (band_of_contains hnode hunder)]
      · have hright := h.right_of_rows hl hrow hi hchart (by rw [htarget]; rfl) hunder
        rw [abs_le] at hx
        linarith
  rw [queueAt, hhit]

/-- **Every visible queue can be clicked.** After any operations, whatever charts there are and however
narrow the canvas is: a point on the circle of a visible queue means this queue. A click there selects
it and leaves tree, folds and layout as they are. A double click flips its fold alone, if it has
children, and does nothing if it has none. -/
theorem run_click (width : ℚ) (ops : List (Operation ℚ)) {node : PlacedNode ℚ}
    (hnode : node ∈ (run width ops).layout.rows)
    (hp : (p.x - node.position.x) ^ 2 + (p.y - node.position.y) ^ 2 ≤ nodeRadius ^ 2) :
    let d := run width ops
    d.queueAt p = some node.name ∧
      (∃ e, d.click p = (some node.name, e) ∧ e.selected = some node.name ∧ e.tree = d.tree ∧
        e.folded = d.folded ∧ e.layout = d.layout) ∧
      ∃ queue, d.tree.get? node.id = some queue ∧ queue.name = node.name ∧
        (queue.children ≠ [] → ∃ folds : FoldedSet,
          d.doubleClick p = (some node.name, redraw { d with folded := folds }) ∧
            ∀ name, folds.contains name = (d.folded.contains name != (name == node.name))) ∧
        (queue.children = [] → d.doubleClick p = (none, d)) := by
  intro d
  have hfresh : Fresh d := fresh_run width ops
  obtain ⟨records, htree⟩ := run_tree width ops
  have hl : d.tree.Linked := htree ▸ QueueTree.build_linked records
  have hd : d.tree.Distinct := htree ▸ QueueTree.build_distinct records
  have hat : d.queueAt p = some node.name := hfresh.queueAt_eq hl hnode hp
  have hclick : d.click p = (some node.name, d.select node.name) := by rw [click, hat]
  have hlayout : (d.select node.name).layout = d.layout := hfresh.layout_eq.symm
  rw [hfresh.layout_eq] at hnode
  obtain ⟨queue, hqueue, hname⟩ := TreeLayout.node_of_mem_compute hl hnode
  have hfold : d.tree.canFold node.name = queue.hasChildren := by
    rw [hname, QueueTree.canFold, QueueTree.byName?_of_get? hd hqueue, Option.any_some]
  refine ⟨hat, ⟨_, hclick, rfl, rfl, rfl, hlayout⟩, queue, hqueue, hname.symm, fun hsome => ?_, fun hnone => ?_⟩
  · have hcan : d.tree.canFold node.name = true := by
      rw [hfold]
      simpa [QueueNode.hasChildren] using hsome
    refine ⟨d.folded.toggle node.name, ?_, fun name => FoldedSet.contains_toggle _ _ _⟩
    simp only [doubleClick, hat, toggleFold, hcan, if_true]
  · have hcannot : d.tree.canFold node.name = false := by
      rw [hfold]
      simp [QueueNode.hasChildren, hnone]
    simp [doubleClick, hat, toggleFold, hcannot]

end

/-- A double click on the rim of the root's circle folds the root. -/
theorem run_click_root :
    letI : Trig ℚ := .rational
    let record (name : String) (children : List String) : QueueRecord ℚ :=
      { QueueRecord.named name with children }
    let d : QueueDashboard ℚ := run 100 [.load [record "root" ["a"], record "a" []]]
    let root : PlacedNode ℚ :=
      { id := 0, name := "root", position := ⟨20, 20⟩, depth := 0, sequence := 0, folded := false
        hasChildren := true }
    let p : Point ℚ := ⟨26, 28⟩
    root ∈ d.layout.rows ∧ (p.x - root.position.x) ^ 2 + (p.y - root.position.y) ^ 2 ≤ nodeRadius ^ 2 ∧
      ∃ folds : FoldedSet, d.doubleClick p = (some "root", redraw { d with folded := folds }) ∧
        folds.contains "root" = true := by
  let trig : Trig ℚ := .rational
  intro record d root p
  have hroot : root ∈ d.layout.rows := by decide +kernel
  have hp : (p.x - root.position.x) ^ 2 + (p.y - root.position.y) ^ 2 ≤ nodeRadius ^ 2 := by
    decide +kernel
  obtain ⟨-, -, queue, hqueue, -, hfold, -⟩ := run_click 100 _ hroot hp
  have hchildren : queue.children = [1] := by
    have hnode : (d.tree.get? 0).map (·.children) = some [1] := by decide +kernel
    rw [show d.tree.get? 0 = some queue from hqueue] at hnode
    exact Option.some.inj hnode
  obtain ⟨folds, hdouble, hfolds⟩ := hfold (by rw [hchildren]; exact List.cons_ne_nil _ _)
  refine ⟨hroot, hp, folds, hdouble, ?_⟩
  rw [hfolds]
  decide +kernel

end QueueDashboard

end QueueBoard
