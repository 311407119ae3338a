import QueueBoard.Proofs.Chart.Extent
import QueueBoard.Proofs.Dashboard.Elements
/-!
# Charts and the canvas

In exact arithmetic. The canvas is high enough for every panel and the space below it
(`Fresh.panel_le_height`), whatever the least height is. It takes no account of legends, which go on
below their panels; so what charts draw is on the canvas exactly as far as the legends are
(`run_extent`), and a dozen children are enough for a legend that is not (`legend_below_canvas`).
-/

namespace QueueBoard

theorem Panel.place_y2_mono {i j : Nat} (h : i ≤ j) (available left : ℚ) :
    (Panel.place i available left).y2 ≤ (Panel.place j available left).y2 := by
  have hrow : ((i / perRow available : Nat) : ℚ) ≤ ((j / perRow available : Nat) : ℚ) := by
    exact_mod_cast Nat.div_le_div_right h
  rw [(place_ofGrid i available left).lower, (place_ofGrid j available left).lower, place_y1, place_y1]
  linarith

theorem Panel.zero_le_place_y1 (index : Nat) (available left : ℚ) : 0 ≤ (place index available left).y1 := by
  have hrow : (0 : ℚ) ≤ ((index / perRow available : Nat) : ℚ) := Nat.cast_nonneg _
  rw [place_y1]
  linarith

/-- A color field or a text of a legend. -/
def Element.OfLegend (e : Element ℚ) : Prop :=
  e.style.role = some "swatch" ∨ e.style.role = some "side-label"

namespace QueueDashboard

/-- Everything charts draw is on the canvas. -/
def ChartsOnCanvas (d : QueueDashboard ℚ) : Prop :=
  ∀ e ∈ d.scene.elements, ∀ top foot, e.extent? = some (top, foot) → 0 ≤ top ∧ foot ≤ d.height

theorem panel_ofGrid (d : QueueDashboard ℚ) (i : Nat) : (d.panel i).OfGrid := Panel.place_ofGrid _ _ _

theorem zero_le_panel_y1 (d : QueueDashboard ℚ) (i : Nat) : 0 ≤ (d.panel i).y1 := Panel.zero_le_place_y1 _ _ _

section

variable [Trig ℚ] {d : QueueDashboard ℚ}

/-- The canvas has room for every panel and a gap below it. -/
theorem Fresh.panel_le_height (h : Fresh d) {i : Nat} (hi : i < d.chartPlan.length) :
    (d.panel i).y2 + 30 ≤ d.height := by
  obtain ⟨last, hlast⟩ : ∃ last, d.chartPlan.length = last + 1 := ⟨d.chartPlan.length - 1, by omega⟩
  have hmono : (d.panel i).y2 ≤ (d.panel last).y2 := Panel.place_y2_mono (by omega) _ _
  have hheight : d.height = max d.leastHeight ((d.panel last).y2 + 30) := h.height_of_charts hlast
  have hmax : (d.panel last).y2 + 30 ≤ d.height := hheight ▸ le_max_right _ _
  linarith

theorem Fresh.chart_of_extent (h : Fresh d) {e : Element ℚ} (he : e ∈ d.scene.elements) {top foot : ℚ}
    (hx : e.extent? = some (top, foot)) : ∃ i, ∃ chart : PlannedChart ℚ, d.chartPlan[i]? = some chart ∧
      e ∈ (chart.render (d.panel i) d.palette).elements := by
  rcases h.mem_elements he with hdrawn | ⟨row, -, hrow⟩ | hchart
  · rcases hdrawn.stroke with ⟨start, finish, hshape⟩ | ⟨path, hshape⟩ <;>
      simp [Element.extent?, hshape] at hx
  · rcases List.mem_cons.1 hrow with rfl | hrow
    · simp [Element.extent?, Element.aim, Element.role, Element.fill, Element.ofShape] at hx
    · rw [List.mem_singleton.1 hrow] at hx
      simp [Element.extent?, Element.aim, Element.role, Element.fill, Element.ofShape, Shape.label] at hx
  · exact hchart

theorem Fresh.chartsOnCanvas_iff (h : Fresh d) : d.ChartsOnCanvas ↔
    ∀ (i : Nat) (chart : PlannedChart ℚ), d.chartPlan[i]? = some chart → chart.bottom (d.panel i) ≤ d.height := by
  constructor
  · intro hon i chart hi
    obtain ⟨e, he, top, hx⟩ := chart.bottom_reached d.palette (d.panel_ofGrid i)
    exact (hon e (h.mem_elements_of_chart hi he) top _ hx).2
  · intro hbottom e he top foot hx
    obtain ⟨i, chart, hi, hchart⟩ := h.chart_of_extent he hx
    obtain ⟨htop, -, hfoot, -⟩ := PlannedChart.extent_mem (d.panel_ofGrid i) hchart hx
    exact ⟨(d.zero_le_panel_y1 i).trans htop, hfoot.trans (hbottom i chart hi)⟩

/-- **How far charts reach over the canvas.** After any operations nothing reaches above the canvas, and
below it only legends can. All is on the canvas if and only if for every chart the rows of its legend
are, which they are if no chart has more than eleven values. -/
theorem run_extent (width : ℚ) (ops : List (Operation ℚ)) :
    let d := run width ops
    (∀ e ∈ d.scene.elements, ∀ top foot, e.extent? = some (top, foot) →
      0 ≤ top ∧ top ≤ foot ∧ (foot ≤ d.height ∨ e.OfLegend)) ∧
    (d.ChartsOnCanvas ↔ ∀ (i : Nat) (chart : PlannedChart ℚ), d.chartPlan[i]? = some chart →
      (d.panel i).y1 + 50 + 25 * chart.legendLength ≤ d.height) ∧
    ((∀ chart ∈ d.chartPlan, chart.data.length ≤ 11) → d.ChartsOnCanvas) := by
  intro d
  have hfresh : Fresh d := fresh_run width ops
  have hpanel : ∀ (i : Nat) (chart : PlannedChart ℚ), d.chartPlan[i]? = some chart →
      (d.panel i).y2 + 30 ≤ d.height := fun i chart hi =>
    hfresh.panel_le_height (List.getElem?_eq_some_iff.1 hi).1
  have hrows : d.ChartsOnCanvas ↔ ∀ (i : Nat) (chart : PlannedChart ℚ), d.chartPlan[i]? = some chart →
      (d.panel i).y1 + 50 + 25 * chart.legendLength ≤ d.height := by
    rw [hfresh.chartsOnCanvas_iff]
    refine forall₃_congr fun i chart hi => ?_
    rw [PlannedChart.bottom, max_le_iff]
    exact and_iff_right (by linarith [hpanel i chart hi])
  refine ⟨fun e he top foot hx => ?_, hrows, fun hfew => hrows.2 fun i chart hi => ?_⟩
  · obtain ⟨i, chart, hi, hchart⟩ := hfresh.chart_of_extent he hx
    obtain ⟨htop, hle, -, hedge⟩ := PlannedChart.extent_mem (d.panel_ofGrid i) hchart hx
    refine ⟨(d.zero_le_panel_y1 i).trans htop, hle, ?_⟩
    by_cases hlegend : e.OfLegend
    · exact Or.inr hlegend
    · obtain ⟨hswatch, hlabel⟩ := not_or.1 hlegend
      exact Or.inl (by linarith [hedge hswatch hlabel, hpanel i chart hi])
  · have hlength : (chart.legendLength : ℚ) ≤ 11 := by
      exact_mod_cast chart.legendLength_le.trans (hfew chart (List.mem_of_getElem? hi))
    have hlower : (d.panel i).y2 = (d.panel i).y1 + 300 := (d.panel_ofGrid i).lower
    -- eleven rows end at 325, the gap below the panel at 330
    linarith [hpanel i chart hi]

end

/-- Twelve children at a width for two charts side by side: the legend of the third chart ends 20 below
the canvas. -/
theorem legend_below_canvas :
    letI : Trig ℚ := .rational
    let children := ["a", "b", "c", "d", "e", "f", "g", "h", "i", "j", "k", "l"]
    let root : QueueRecord ℚ := { QueueRecord.named "root" with children }
    let d : QueueDashboard ℚ := run 1200 [.load (root :: children.map QueueRecord.named)]
    d.height = 690 ∧ (∃ layer ∈ d.scene.layers, layer.id = "chart-2" ∧
      ∃ e ∈ layer.elements, e.style.role = some "swatch" ∧ e.extent? = some (695, 710)) ∧
      ¬ d.ChartsOnCanvas := by
  let trig : Trig ℚ := .rational
  intro children root d
  have hheight : d.height = 690 := by decide +kernel
  have hswatch : ∃ layer ∈ d.scene.layers, layer.id = "chart-2" ∧
      ∃ e ∈ layer.elements, e.style.role = some "swatch" ∧ e.extent? = some (695, 710) := by
    decide +kernel
  refine ⟨hheight, hswatch, fun hon => ?_⟩
  obtain ⟨layer, hlayer, -, e, he, -, hx⟩ := hswatch
  have hfoot := (hon e (Scene.mem_elements.2 ⟨layer, hlayer, he⟩) _ _ hx).2
  rw [hheight] at hfoot
  exact absurd hfoot (by norm_num)

end QueueDashboard

end QueueBoard
