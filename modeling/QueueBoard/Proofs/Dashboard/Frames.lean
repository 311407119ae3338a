import QueueBoard.Proofs.Chart.Grid
import QueueBoard.Proofs.Dashboard.Layers
/-!
# The frames of the charts

In exact arithmetic, at any width. After any operations every chart of the plan has its frame on the canvas;
the frames are 30 apart, right of the tree and above the lower edge (`run_frames`), as they stand in the panels
of a grid.
-/

namespace QueueBoard

open Extended (finite)

variable {α : Type}

/-- The box in the place of a chart's frame. -/
def Layer.frame? (l : Layer α) : Option (Bounds α) :=
  (l.elements.find? (·.style.role == some "chart-frame")).bind fun e =>
    match e.shape with
    | .rect origin width height => some ⟨origin.x, origin.y, width, height⟩
    | _ => none

variable [Scalar α]

/-- One of two boxes begins at least 30 after the other has ended, across or down. -/
def Bounds.Apart (b c : Bounds α) : Prop :=
  b.left + b.width + 30 ≤ c.left ∨ c.left + c.width + 30 ≤ b.left ∨
    b.top + b.height + 30 ≤ c.top ∨ c.top + c.height + 30 ≤ b.top

/-- The box that a panel fills. -/
def Panel.box (p : Panel α) : Bounds α := ⟨p.x1, p.y1, p.width, p.height⟩

variable [Trig α]

theorem PlannedChart.frame?_render (c : PlannedChart α) (panel : Panel α) (palette : Palette) :
    (c.render panel palette).frame? = some panel.box := by
  unfold PlannedChart.render
  cases c.kind <;> rfl

namespace Panel.InCell

variable {p q : Panel Extended} {left : ℚ} {row column row' column' : Nat}

theorem right_box (h : p.InCell left row column) : p.box.left + p.box.width = p.x2 := by
  simp only [box, width, h.x1, h.x2, Extended.finite_sub, Extended.finite_add]
  rw [add_sub_cancel]

theorem foot_box (h : p.InCell left row column) : p.box.top + p.box.height = p.y2 := by
  simp only [box, height, h.y1, h.y2, Extended.finite_sub, Extended.finite_add]
  rw [add_sub_cancel]

theorem box_apart (hp : p.InCell left row column) (hq : q.InCell left row' column') (h : p.Apart q) :
    p.box.Apart q.box := by
  rw [Bounds.Apart, hp.right_box, hq.right_box, hp.foot_box, hq.foot_box]
  exact h

end Panel.InCell

namespace QueueDashboard

/-- The frame of a chart by its number. -/
def frame? (d : QueueDashboard α) (i : Nat) : Option (Bounds α) :=
  (d.scene.layer? ("chart-" ++ toString i)).bind Layer.frame?

/-- The frames of charts are where they belong. -/
structure Framed (d : QueueDashboard Extended) : Prop where
  shown : ∀ i, (d.frame? i).isSome ↔ i < d.chartPlan.length
  apart : ∀ i j b c, i ≠ j → d.frame? i = some b → d.frame? j = some c → b.Apart c
  beside : ∀ i b, d.frame? i = some b → d.layout.bannerWidth + 30 ≤ b.left
  above : ∀ i b, d.frame? i = some b → b.top + b.height + 30 ≤ d.scene.height

theorem Fresh.frame?_eq {d : QueueDashboard α} (h : Fresh d) (i : Nat) :
    d.frame? i = d.chartPlan[i]?.map fun _ => (d.panel i).box := by
  rw [frame?, h.layer_chart]
  cases d.chartPlan[i]? with
  | none => rfl
  | some chart => exact PlannedChart.frame?_render _ _ _

theorem Fresh.frame?_eq_some {d : QueueDashboard α} (h : Fresh d) {i : Nat} {b : Bounds α}
    (hb : d.frame? i = some b) : i < d.chartPlan.length ∧ b = (d.panel i).box := by
  rw [h.frame?_eq, Option.map_eq_some_iff] at hb
  obtain ⟨chart, hchart, rfl⟩ := hb
  exact ⟨(List.getElem?_eq_some_iff.1 hchart).1, rfl⟩

theorem Fresh.scene_height {d : QueueDashboard α} (h : Fresh d) : d.scene.height = d.height := by
  rw [← h.scene_eq, ← h.height_eq]
  rfl

/-- The panels of a picture are those of a grid right of the tree. -/
theorem panel_eq_place (d : QueueDashboard Extended) : ∃ left : ℚ, d.layout.bannerWidth = finite left ∧
    ∀ i, d.panel i = Panel.place i (d.width - d.layout.bannerWidth) (finite left) :=
  ⟨_, rfl, fun _ => rfl⟩

theorem Fresh.framed [Trig Extended] {d : QueueDashboard Extended} (h : Fresh d) : Framed d := by
  obtain ⟨left, hleft, hpanel⟩ := d.panel_eq_place
  have hgrid := Panel.gridded (d.width - d.layout.bannerWidth) left
  have hcell := fun i => (hgrid.rows i).2
  simp only [← hpanel] at hcell
  refine ⟨fun i => ?_, fun i j b c hne hb hc => ?_, fun i b hb => ?_, fun i b hb => ?_⟩
  · rw [h.frame?_eq, Option.isSome_map, isSome_getElem?]
  · obtain ⟨-, rfl⟩ := h.frame?_eq_some hb
    obtain ⟨-, rfl⟩ := h.frame?_eq_some hc
    have happart := (hgrid.apart i j hne).1
    rw [← hpanel, ← hpanel] at happart
    exact (hcell i).box_apart (hcell j) happart
  · obtain ⟨-, rfl⟩ := h.frame?_eq_some hb
    rw [hleft, hpanel, Extended.numeral_extended, Extended.finite_add]
    exact hgrid.beginning i
  · obtain ⟨hi, rfl⟩ := h.frame?_eq_some hb
    -- the last panel is in the lowest row, and the height is taken from it
    obtain ⟨last, hlast⟩ : ∃ last, d.chartPlan.length = last + 1 := ⟨d.chartPlan.length - 1, by omega⟩
    have hlowest : (d.panel i).y2 ≤ (d.panel last).y2 := by
      rw [hpanel, hpanel]
      exact Panel.place_y2_le (by omega) _ _
    rw [(hcell i).y2, (hcell last).y2, Extended.finite_le] at hlowest
    rw [(hcell i).foot_box, h.scene_height, h.height_of_charts hlast, (hcell i).y2, (hcell last).y2]
    exact Extended.finite_le_max _ (add_le_add_left hlowest 30)

/-- **Panels never collide and stay on the canvas.** Over any width the panels of a grid fill its rows, 30 apart
and within a width that has room for one; a grid hands them out in order and knows the lowest edge. So after any
operations the frames of the charts are 30 apart, right of the tree and above the lower edge of the canvas. -/
theorem run_frames [Trig Extended] :
    (∀ (available : Extended) (left : ℚ), Panel.Gridded available left) ∧
    (∀ (available : Extended) (left : ℚ) (n : Nat),
      let (panels, g) := PanelGrid.handOut n { available, left := finite left }
      panels = (List.range n).map (fun i => Panel.place i available (finite left)) ∧
        (n = 0 → g.bottom = 0) ∧ (n ≠ 0 → ∃ p ∈ panels, p.y2 = g.bottom) ∧ ∀ p ∈ panels, p.y2 ≤ g.bottom) ∧
    ∀ (width : Extended) (ops : List (Operation Extended)), Framed (run width ops) :=
  ⟨Panel.gridded, PanelGrid.handOut_spec, fun width ops => (fresh_run width ops).framed⟩

end QueueDashboard

end QueueBoard
