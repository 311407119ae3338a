import QueueBoard.Proofs.Chart.Elements
import QueueBoard.Proofs.Dashboard.Fresh
import QueueBoard.Proofs.Queue.Walk
import QueueBoard.Proofs.Scene.Hit
/-!
# What is on the canvas

A fresh picture shows the rows of the present layout, the charts of the present plan, and lines without
a meaning (`Fresh.mem_elements`). So what the pointer can mean on it are the visible queues
(`Fresh.queue_iff`) and the data of the plan (`Fresh.datum_iff`).
-/

namespace QueueBoard

variable {α : Type}

/-- Lines and curves that mean nothing: the grid, the rule and the connectors. -/
structure Element.Drawn (e : Element α) : Prop where
  target : e.target = none
  stroke : (∃ start finish, e.shape = .line start finish) ∨ ∃ path, e.shape = .path path

namespace QueueDashboard

variable [Scalar α] {d : QueueDashboard α} {e : Element α}

theorem mem_nodeElements {row : PlacedNode α} (h : e ∈ d.nodeElements row) :
    e.target = some (.queue row.name) ∧
      (e.shape = .circle row.position nodeRadius ∨ e.shape = .label row.labelAt row.label) := by
  rcases List.mem_cons.1 h with rfl | h
  · exact ⟨rfl, Or.inl rfl⟩
  · rw [List.mem_singleton.1 h]
    exact ⟨rfl, Or.inr rfl⟩

theorem circle_mem (d : QueueDashboard α) (row : PlacedNode α) :
    ∃ e ∈ d.nodeElements row, e.target = some (.queue row.name) ∧
      e.shape = .circle row.position nodeRadius := ⟨_, .head _, rfl, rfl⟩

variable [Trig α]

theorem fresh_run (width : α) (ops : List (Operation α)) : Fresh (run width ops) :=
  run_induction width (redraw_fresh _) (fun _ op h => apply_fresh h op) ops

theorem Fresh.layout_eq (h : Fresh d) : d.layout = TreeLayout.compute d.tree d.folded :=
  (congrArg QueueDashboard.layout h).symm

theorem Fresh.height_eq (h : Fresh d) : d.redraw.height = d.height := by rw [h]

theorem Fresh.scene_eq (h : Fresh d) : d.redraw.scene = d.scene := by rw [h]

/-! ## What operations leave alone -/

/-- Operations that say anew what the pointer is on. -/
def Operation.looks : Operation α → Bool
  | .load _ | .pointerMoved _ | .pointerLeft => true
  | _ => false

theorem toggleFold_frame (d : QueueDashboard α) (name : String) :
    (d.toggleFold name).2.tree = d.tree ∧ (d.toggleFold name).2.hovered = d.hovered ∧
      (d.toggleFold name).2.tooltip = d.tooltip := by
  rcases d.toggleFold_cases name with h | h <;> rw [h] <;> exact ⟨rfl, rfl, rfl⟩

/-- All other operations leave the tree and the pointer's marks as they are. -/
theorem apply_frame (d : QueueDashboard α) {op : Operation α} (h : op.looks = false) :
    (d.apply op).tree = d.tree ∧ (d.apply op).hovered = d.hovered ∧ (d.apply op).tooltip = d.tooltip := by
  cases op with
  | load records => cases h
  | pointerMoved pointer => cases h
  | pointerLeft => cases h
  | withPalette palette => exact ⟨rfl, rfl, rfl⟩
  | select name => exact ⟨rfl, rfl, rfl⟩
  | redraw => exact ⟨rfl, rfl, rfl⟩
  | toggleFold name => exact d.toggleFold_frame name
  | resize width =>
    simp only [apply, resize]
    split <;> exact ⟨rfl, rfl, rfl⟩
  | click pointer =>
    simp only [apply, click]
    split <;> exact ⟨rfl, rfl, rfl⟩
  | doubleClick pointer =>
    simp only [apply, doubleClick]
    split
    · exact ⟨rfl, rfl, rfl⟩
    · exact d.toggleFold_frame _

theorem apply_tree (d : QueueDashboard α) (op : Operation α) :
    (d.apply op).tree = d.tree ∨ ∃ records, (d.apply op).tree = QueueTree.build records := by
  have hovered : ∀ name, (d.hover name).tree = d.tree := by
    intro name
    unfold hover
    split <;> rfl
  cases hlooks : op.looks with
  | false => exact Or.inl (d.apply_frame hlooks).1
  | true =>
    cases op with
    | load records => exact Or.inr ⟨records, rfl⟩
    | pointerMoved pointer => exact Or.inl (hovered _)
    | pointerLeft =>
      rw [apply, pointerLeft_eq]
      exact Or.inl (hovered none)
    | _ => cases hlooks

/-- Every tree on a board is that of some snapshot. -/
theorem run_tree (width : α) (ops : List (Operation α)) :
    ∃ records, (run width ops).tree = QueueTree.build records := by
  refine run_induction (P := fun d => ∃ records, d.tree = QueueTree.build records) width ⟨[], rfl⟩ ?_ ops
  rintro d op ⟨records, h⟩
  rcases d.apply_tree op with hkept | hloaded
  · exact ⟨records, hkept.trans h⟩
  · exact hloaded

/-! ## Elements -/

/-- The place of a chart of the plan. -/
def panel (d : QueueDashboard α) (i : Nat) : Panel α :=
  Panel.place i (d.width - d.layout.bannerWidth) d.layout.bannerWidth

theorem Fresh.panel_eq (h : Fresh d) (i : Nat) : d.redraw.panel i = d.panel i := by rw [h]; rfl

/-- The height of a picture with charts is taken from the last of them, for it is in the lowest row. -/
theorem Fresh.height_of_charts (h : Fresh d) {last : Nat} (hlast : d.chartPlan.length = last + 1) :
    d.height = Scalar.max d.leastHeight ((d.panel last).y2 + Panel.gap) := by
  have hgrid : d.redraw.height = Scalar.max d.leastHeight ((d.redraw.panel last).y2 + Panel.gap) := by
    simp only [redraw, renderPlan_grid, hlast, Nat.zero_add, PanelGrid.bottom]
    rfl
  rwa [h.height_eq, h.panel_eq] at hgrid

theorem mem_chartLayers_iff {layer : Layer α} : layer ∈ d.chartLayers ↔
    ∃ i, ∃ chart : PlannedChart α, d.chartPlan[i]? = some chart ∧
      layer = chart.render (d.redraw.panel i) d.palette := by
  rw [chartLayers, mem_renderPlan]
  simp only [Nat.zero_add]
  rfl

/-- What lies below the tree means nothing. -/
theorem drawn_of_mem_backdrop {layer : Layer α}
    (h : layer ∈ Backdrop.grid d.width d.redraw.height :: d.ruleLayers) (he : e ∈ layer.elements) :
    e.Drawn := by
  rcases List.mem_cons.1 h with rfl | h
  · rcases List.mem_append.1 he with he | he <;> obtain ⟨stop, -, rfl⟩ := List.mem_map.1 he <;>
      exact ⟨rfl, Or.inl ⟨_, _, rfl⟩⟩
  · unfold ruleLayers at h
    split at h
    · cases h
    · rw [List.mem_singleton.1 h] at he
      rw [List.mem_singleton.1 he]
      exact ⟨rfl, Or.inl ⟨_, _, rfl⟩⟩

/-- The layers without charts show the rows and what is drawn without a meaning. -/
theorem drawn_or_row {layer : Layer α}
    (h : layer ∈ Backdrop.grid d.width d.redraw.height :: d.ruleLayers ∨
      layer = d.treeLayer d.redraw.layout) (he : e ∈ layer.elements) :
    e.Drawn ∨ ∃ row ∈ d.redraw.layout.rows, e ∈ d.nodeElements row := by
  rcases h with h | rfl
  · exact Or.inl (drawn_of_mem_backdrop h he)
  · rcases List.mem_append.1 he with he | he
    · obtain ⟨c, -, rfl⟩ := List.mem_map.1 he
      exact Or.inl ⟨rfl, Or.inr ⟨_, rfl⟩⟩
    · exact Or.inr (List.mem_flatMap.1 he)

/-- **What a fresh picture shows.** -/
theorem Fresh.mem_elements (h : Fresh d) (he : e ∈ d.scene.elements) :
    e.Drawn ∨ (∃ row ∈ d.layout.rows, e ∈ d.nodeElements row) ∨
      ∃ i, ∃ chart : PlannedChart α, d.chartPlan[i]? = some chart ∧
        e ∈ (chart.render (d.panel i) d.palette).elements := by
  have hlayout : d.redraw.layout = d.layout := h.layout_eq.symm
  obtain ⟨layer, hlayer, he⟩ := Scene.mem_elements.1 he
  have hfirst : e.Drawn ∨ (∃ row ∈ d.redraw.layout.rows, e ∈ d.nodeElements row) ∨
      layer ∈ d.chartLayers := by
    rw [← h.scene_eq, redraw_layers] at hlayer
    rcases List.mem_append.1 hlayer with hlayer | hlayer
    · exact (drawn_or_row (Or.inl hlayer) he).imp_right Or.inl
    · rcases List.mem_cons.1 hlayer with hlayer | hlayer
      · exact (drawn_or_row (Or.inr hlayer) he).imp_right Or.inl
      · exact Or.inr (Or.inr hlayer)
  rw [hlayout] at hfirst
  refine hfirst.imp_right (Or.imp_right fun hchart => ?_)
  obtain ⟨i, chart, hi, rfl⟩ := mem_chartLayers_iff.1 hchart
  rw [h.panel_eq] at he
  exact ⟨i, chart, hi, he⟩

theorem Fresh.mem_elements_of_row (h : Fresh d) {row : PlacedNode α} (hrow : row ∈ d.layout.rows)
    (he : e ∈ d.nodeElements row) : e ∈ d.scene.elements := by
  have hlayout : d.redraw.layout = d.layout := h.layout_eq.symm
  refine Scene.mem_elements.2 ⟨d.treeLayer d.redraw.layout, ?_, ?_⟩
  · rw [← h.scene_eq, redraw_layers]
    exact List.mem_append_right _ (.head _)
  · rw [hlayout]
    exact List.mem_append_right _ (List.mem_flatMap.2 ⟨row, hrow, he⟩)

theorem Fresh.mem_elements_of_chart (h : Fresh d) {i : Nat} {chart : PlannedChart α}
    (hi : d.chartPlan[i]? = some chart) (he : e ∈ (chart.render (d.panel i) d.palette).elements) :
    e ∈ d.scene.elements := by
  refine Scene.mem_elements.2 ⟨chart.render (d.panel i) d.palette, ?_, he⟩
  rw [← h.scene_eq, redraw_layers]
  refine List.mem_append_right _ (.tail _ (mem_chartLayers_iff.2 ⟨i, chart, hi, ?_⟩))
  rw [h.panel_eq]

/-! ## Targets -/

/-- **The queues the pointer can mean are the visible ones.** -/
theorem Fresh.queue_iff (h : Fresh d) {name : String} :
    (∃ e ∈ d.scene.elements, e.target = some (.queue name)) ↔ ∃ row ∈ d.layout.rows, row.name = name := by
  constructor
  · rintro ⟨e, he, htarget⟩
    rcases h.mem_elements he with hdrawn | ⟨row, hrow, hnode⟩ | ⟨i, chart, -, hchart⟩
    · rw [hdrawn.target] at htarget
      cases htarget
    · rw [(mem_nodeElements hnode).1] at htarget
      cases htarget
      exact ⟨row, hrow, rfl⟩
    · obtain ⟨datum, -, hdatum⟩ := PlannedChart.target_iff.1 ⟨e, hchart, htarget⟩
      cases hdatum
  · rintro ⟨row, hrow, rfl⟩
    obtain ⟨e, he, htarget, -⟩ := d.circle_mem row
    exact ⟨e, h.mem_elements_of_row hrow he, htarget⟩

/-- There is a row of the name. -/
def HasRow (d : QueueDashboard α) (name : String) : Prop := ∃ row ∈ d.layout.rows, row.name = name

/-- A queue under the pointer is a visible one. -/
theorem Fresh.hasRow_of_queueAt (h : Fresh d) {p : Point α} {name : String} (hqueue : d.queueAt p = some name) :
    d.HasRow name := by
  unfold queueAt at hqueue
  split at hqueue
  · rename_i queue hhit
    cases hqueue
    obtain ⟨e, he, htarget, -⟩ := Scene.exists_of_targetAt hhit
    exact h.queue_iff.1 ⟨e, he, htarget⟩
  · cases hqueue

/-- **The values the pointer can mean are those of the charts.** -/
theorem Fresh.datum_iff (h : Fresh d) {datum : Datum α} :
    (∃ e ∈ d.scene.elements, e.target = some (.datum datum)) ↔ ∃ chart ∈ d.chartPlan, datum ∈ chart.data := by
  constructor
  · rintro ⟨e, he, htarget⟩
    rcases h.mem_elements he with hdrawn | ⟨row, -, hnode⟩ | ⟨i, chart, hi, hchart⟩
    · rw [hdrawn.target] at htarget
      cases htarget
    · rw [(mem_nodeElements hnode).1] at htarget
      cases htarget
    · obtain ⟨other, hother, hdatum⟩ := PlannedChart.target_iff.1 ⟨e, hchart, htarget⟩
      cases hdatum
      exact ⟨chart, List.mem_of_getElem? hi, hother⟩
  · rintro ⟨chart, hchart, hdatum⟩
    obtain ⟨i, hi⟩ := List.mem_iff_getElem?.1 hchart
    obtain ⟨e, he, htarget⟩ := PlannedChart.target_iff.2 ⟨datum, hdatum, rfl⟩
    exact ⟨e, h.mem_elements_of_chart hi he, htarget⟩

end QueueDashboard

end QueueBoard
