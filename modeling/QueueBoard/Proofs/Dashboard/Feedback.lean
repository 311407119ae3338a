import QueueBoard.Proofs.Dashboard.Elements
import QueueBoard.Proofs.Basic
import QueueBoard.Proofs.Queue.Visible
import QueueBoard.Proofs.Scalar.Rational
import QueueBoard.Scalar.Float
/-!
# What the pointer is told

Tooltip and hover mark are set when the pointer moves, and nothing but the pointer and a load resets
them. They describe the present picture as long as the selection is the same (`TooltipCurrent`) and
nothing more is folded (`HoverCurrent`); see `run_feedback`. A selection or a fold by key can make
them outlive what they describe (`feedback_outlives_picture`).
-/

namespace QueueBoard

variable {α : Type}

theorem TreeLayout.exists_row_of_fewer_folds [Scalar α] {tree : QueueTree α} (hl : tree.Linked)
    {F G : FoldedSet} (hFG : ∀ name, F.contains name = true → G.contains name = true)
    {row : PlacedNode α} (h : row ∈ (compute tree G).rows) :
    ∃ other ∈ (compute tree F).rows, other.name = row.name := by
  have hid : row.id ∈ (compute tree G).ids := List.mem_map_of_mem h
  have hreach := (mem_ids_compute_iff hl).1 hid
  have hid' : row.id ∈ (compute tree F).ids := (mem_ids_compute_iff hl).2 (hreach.anti hFG)
  obtain ⟨other, hother, heq⟩ := List.mem_map.1 hid'
  obtain ⟨m, hm, hname⟩ := node_of_mem_compute hl h
  obtain ⟨n, hn, hname'⟩ := node_of_mem_compute hl hother
  have hmn : n = m := by
    rw [heq, hm] at hn
    exact (Option.some.inj hn).symm
  exact ⟨other, hother, by rw [hname', hmn, hname]⟩

namespace QueueDashboard

section

variable [Scalar α] {d e : QueueDashboard α}

theorem hovered_hover (d : QueueDashboard α) (name : Option String) : (d.hover name).hovered = name := by
  unfold hover
  by_cases h : (d.hovered == name) = true
  · rw [if_pos h]
    exact beq_iff_eq.1 h
  · rw [if_neg h]
    rfl

theorem layout_hover (d : QueueDashboard α) (name : Option String) : (d.hover name).layout = d.layout := by
  unfold hover
  split <;> rfl

variable [Trig α]

/-- A visible tooltip tells a value that something in the picture stands for. -/
def TooltipCurrent (d : QueueDashboard α) : Prop :=
  d.tooltip.tooltip.isVisible = true → ∃ e ∈ d.scene.elements, ∃ datum,
    e.target = some (.datum datum) ∧ d.tooltip.tooltip.text = datum.describe

/-- The hovered queue is a visible one. -/
def HoverCurrent (d : QueueDashboard α) : Prop :=
  ∀ name, d.hovered = some name → ∃ row ∈ d.layout.rows, row.name = name

/-- Both marks of the pointer belong to the picture. -/
def FeedbackCurrent (d : QueueDashboard α) : Prop := TooltipCurrent d ∧ HoverCurrent d

/-! ## Looking -/

theorem track_current (hzero : ¬ (0 : α) < 0) (c : TooltipController α) (scene : Scene α) (p : Point α)
    (h : (c.track scene p).tooltip.isVisible = true) : ∃ e ∈ scene.elements, ∃ datum,
      e.target = some (.datum datum) ∧ (c.track scene p).tooltip.text = datum.describe := by
  unfold TooltipController.track at h ⊢
  split at h
  · rename_i datum hhit
    obtain ⟨e, he, htarget, -⟩ := Scene.exists_of_targetAt hhit
    exact ⟨e, he, datum, htarget, rfl⟩
  · -- off every datum a tooltip that shows is hidden, any other stays hidden
    by_cases hshown : (c.hovered.isSome || c.tooltip.isVisible) = true
    · rw [if_pos hshown] at h
      exact absurd (of_decide_eq_true h) hzero
    · rw [if_neg hshown] at h
      rw [Bool.or_eq_true, not_or] at hshown
      exact absurd h hshown.2

theorem pointerMoved_current (hzero : ¬ (0 : α) < 0) (h : Fresh d) (p : Point α) :
    FeedbackCurrent (d.pointerMoved p) := by
  refine ⟨fun hvisible => track_current hzero (d.hover (d.queueAt p)).tooltip _ p hvisible, ?_⟩
  intro name hname
  have hqueue : d.queueAt p = some name := (d.hovered_hover (d.queueAt p)).symm.trans hname
  have hrow : ∃ row ∈ d.layout.rows, row.name = name := h.hasRow_of_queueAt hqueue
  rw [← d.layout_hover (d.queueAt p)] at hrow
  exact hrow

theorem apply_looks_current (hzero : ¬ (0 : α) < 0) (h : Fresh d) {op : Operation α}
    (hlooks : op.looks = true) : FeedbackCurrent (d.apply op) := by
  cases op with
  | load records => exact ⟨fun hvisible => absurd (of_decide_eq_true hvisible) hzero, fun _ hname => nomatch hname⟩
  | pointerMoved pointer => exact pointerMoved_current hzero h pointer
  | pointerLeft =>
    rw [apply, pointerLeft_eq]
    refine ⟨fun hvisible => absurd (of_decide_eq_true hvisible) hzero, fun name hname => ?_⟩
    cases (d.hovered_hover none).symm.trans hname
  | _ => cases hlooks

/-! ## Not looking -/

/-- A tooltip that was right stays so while the selection does. -/
theorem TooltipCurrent.of_selected (hcurrent : TooltipCurrent d) (hd : Fresh d) (he : Fresh e)
    (htooltip : e.tooltip = d.tooltip) (htree : e.tree = d.tree) (hselected : e.selected = d.selected) :
    TooltipCurrent e := by
  -- the targets are the data of the plan, and the plan is read off tree and selection
  have hplan : e.chartPlan = d.chartPlan := by rw [chartPlan, chartPlan, hselected, htree]
  intro hvisible
  rw [htooltip] at hvisible ⊢
  obtain ⟨element, helement, datum, htarget, htext⟩ := hcurrent hvisible
  have hdatum := hd.datum_iff.1 ⟨element, helement, htarget⟩
  rw [← hplan] at hdatum
  obtain ⟨other, hother, htarget⟩ := he.datum_iff.2 hdatum
  exact ⟨other, hother, datum, htarget, htext⟩

/-- A hover mark that was right stays so while no queue is folded. -/
theorem HoverCurrent.of_folded (hcurrent : HoverCurrent d) (hd : Fresh d) (he : Fresh e)
    (hl : d.tree.Linked) (hhovered : e.hovered = d.hovered) (htree : e.tree = d.tree)
    (hfolded : ∀ name, e.folded.contains name = true → d.folded.contains name = true) : HoverCurrent e := by
  intro name hname
  rw [hhovered] at hname
  obtain ⟨row, hrow, rfl⟩ := hcurrent name hname
  rw [hd.layout_eq] at hrow
  rw [he.layout_eq, htree]
  exact TreeLayout.exists_row_of_fewer_folds hl hfolded hrow

/-- The marks of the pointer are those of the last look, when they belonged to the picture. -/
theorem run_since_look (hzero : ¬ (0 : α) < 0) (width : α) (ops : List (Operation α)) :
    let d := run width (upToReset Operation.looks ops)
    let e := run width ops
    FeedbackCurrent d ∧ e.tree = d.tree ∧ e.hovered = d.hovered ∧ e.tooltip = d.tooltip := by
  refine since_reset apply (new width) Operation.looks FeedbackCurrent
    (fun d e => e.tree = d.tree ∧ e.hovered = d.hovered ∧ e.tooltip = d.tooltip) ?_ ?_ ?_ ?_ ops
  · refine ⟨fun hvisible => ?_, fun _ hname => nomatch hname⟩
    exact absurd (of_decide_eq_true hvisible) hzero
  · exact fun before op hlooks => apply_looks_current hzero (fresh_run width before) hlooks
  · exact fun d => ⟨rfl, rfl, rfl⟩
  · rintro d e op hlooks ⟨htree, hhovered, htooltip⟩
    obtain ⟨htree', hhovered', htooltip'⟩ := e.apply_frame hlooks
    exact ⟨htree'.trans htree, hhovered'.trans hhovered, htooltip'.trans htooltip⟩

/-- **When feedback belongs to the picture.** After the pointer moved or left or a snapshot was loaded,
tooltip and hover mark do. From then on the tooltip does as long as the selection is as it was then, and
the hover mark as long as nothing is folded that was not folded then. -/
theorem run_feedback (hzero : ¬ (0 : α) < 0) (width : α) (ops : List (Operation α)) :
    let d := run width (upToReset Operation.looks ops)
    let e := run width ops
    FeedbackCurrent d ∧ (e.selected = d.selected → TooltipCurrent e) ∧
      ((∀ name, e.folded.contains name = true → d.folded.contains name = true) → HoverCurrent e) := by
  intro d e
  obtain ⟨hcurrent, htree, hhovered, htooltip⟩ := run_since_look hzero width ops
  have hd : Fresh d := fresh_run width _
  have he : Fresh e := fresh_run width ops
  obtain ⟨records, hbuild⟩ := run_tree width (upToReset Operation.looks ops)
  have hl : d.tree.Linked := hbuild ▸ QueueTree.build_linked records
  exact ⟨hcurrent, fun hselected => hcurrent.1.of_selected hd he htooltip htree hselected,
    fun hfolded => hcurrent.2.of_folded hd he hl hhovered htree hfolded⟩

end

/-- Zero is not negative for floats either: after a move of the pointer and a redraw, its marks belong to
the picture. -/
theorem run_feedback_redraw :
    let look : List (Operation Float) := [.load [QueueRecord.named "root"], .pointerMoved ⟨20, 20⟩]
    ¬ (0 : Float) < 0 ∧ FeedbackCurrent (run 1200 (look ++ [.redraw])) := by
  intro look
  have hzero : ¬ (0 : Float) < 0 := by decide
  have hlook : upToReset Operation.looks (look ++ [.redraw]) = look := rfl
  have hrun : run 1200 (look ++ [.redraw]) = (run 1200 look).redraw := by rw [run, List.foldl_append]; rfl
  obtain ⟨-, htooltip, hhover⟩ := run_feedback hzero 1200 (look ++ [.redraw])
  rw [hlook, hrun] at htooltip hhover
  rw [hrun]
  generalize run 1200 look = d at htooltip hhover ⊢
  exact ⟨hzero, htooltip rfl, hhover fun _ h => h⟩

/-- Two pictures that feedback outlives: with the root folded the hovered queue is hidden, and with the
root selected the bar of the tooltip is gone. -/
theorem feedback_outlives_picture :
    letI : Trig ℚ := .rational
    let records : List (QueueRecord ℚ) :=
      [{ QueueRecord.named "root" with children := ["a"] }, QueueRecord.named "a"]
    let folded := run 1200 [.load records, .pointerMoved ⟨50, 50⟩, .toggleFold "root"]
    let reselected := run 1200 [.load records, .select "a", .pointerMoved ⟨231, 80⟩, .select "root"]
    ¬ HoverCurrent folded ∧ ¬ TooltipCurrent reselected := by
  let trig : Trig ℚ := .rational
  intro records folded reselected
  constructor
  · intro hcurrent
    have hhovered : folded.hovered = some "a" := by decide +kernel
    have hrows : folded.layout.rows.map (·.name) = ["root"] := by decide +kernel
    obtain ⟨row, hrow, hname⟩ := hcurrent "a" hhovered
    have hmem : row.name ∈ folded.layout.rows.map (·.name) := List.mem_map_of_mem hrow
    rw [hrows, hname] at hmem
    exact absurd hmem (by decide)
  · intro hcurrent
    have hfresh : Fresh reselected := fresh_run 1200 _
    have hvisible : reselected.tooltip.tooltip.isVisible = true := by decide +kernel
    have htext : reselected.tooltip.tooltip.text = "Cap = 0" := by decide +kernel
    have htold : reselected.chartPlan.flatMap (fun chart => chart.data.map Datum.describe) =
        ["a = 0", "a = 0", "a = 0"] := by decide +kernel
    clear_value reselected
    obtain ⟨e, he, datum, htarget, hdescribe⟩ := hcurrent hvisible
    obtain ⟨chart, hchart, hdatum⟩ := hfresh.datum_iff.1 ⟨e, he, htarget⟩
    have hmem : datum.describe ∈ reselected.chartPlan.flatMap fun chart => chart.data.map Datum.describe :=
      List.mem_flatMap.2 ⟨chart, hchart, List.mem_map_of_mem hdatum⟩
    rw [htold, ← hdescribe, htext] at hmem
    exact absurd hmem (by decide)

end QueueDashboard

end QueueBoard
