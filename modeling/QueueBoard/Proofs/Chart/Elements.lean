import QueueBoard.Chart.Plan
import Mathlib.Data.List.Basic
/-!
# What charts are made of

Every renderer joins a few lists; here an element of a chart is traced back to the datum it stands
for (`Bar.mem_render`, `Donut.mem_render`), and an element of a plan's picture to its chart and panel
(`mem_renderPlan`). What the pointer can hit of a chart are its data and nothing else
(`PlannedChart.target_iff`).
-/

namespace QueueBoard

variable {α : Type}

theorem mem_flatten_mapIdx {β γ : Type} {f : Nat → β → List γ} {xs : List β} {e : γ} :
    e ∈ (xs.mapIdx f).flatten ↔ ∃ i x, xs[i]? = some x ∧ e ∈ f i x := by
  rw [List.mem_flatten]
  constructor
  · rintro ⟨l, hl, he⟩
    obtain ⟨i, hi, rfl⟩ := List.mem_iff_getElem.1 hl
    rw [List.length_mapIdx] at hi
    exact ⟨i, xs[i], List.getElem?_eq_getElem hi, by simpa using he⟩
  · rintro ⟨i, x, hx, he⟩
    exact ⟨f i x, List.mem_iff_getElem?.2 ⟨i, by simp [hx]⟩, he⟩

variable [Scalar α] {data : List (Datum α)} {title : String} {panel : Panel α}
  {palette : Palette} {e : Element α}

theorem target_of_mem_panelLayer (h : e ∈ (panelLayer title panel).elements) : e.target = none := by
  rcases List.mem_cons.1 h with rfl | h
  · rfl
  · rw [List.mem_singleton.1 h]
    rfl

namespace Bar

variable {labelWidth : α}

theorem length_placements : (placements data panel labelWidth).length = data.length := by
  simp [placements]

theorem placements_spec {i : Nat} {bar : Placement α}
    (h : (placements data panel labelWidth)[i]? = some bar) :
    i < data.length ∧ bar.x = panel.x1 + panel.margin + labelWidth ∧ bar.height = barHeight ∧
      bar.y = panel.y1 + titleRoom + panel.margin +
        (gap panel data.length + barHeight) * Scalar.ofNat i := by
  simp only [placements, List.getElem?_mapIdx, Option.map_eq_some_iff] at h
  obtain ⟨datum, hdatum, rfl⟩ := h
  exact ⟨(List.getElem?_eq_some_iff.1 hdatum).1, rfl, rfl, rfl⟩

theorem mem_render : e ∈ (render data title panel labelWidth palette).elements ↔
    e ∈ (panelLayer title panel).elements ∨
      ∃ i datum bar, data[i]? = some datum ∧ (placements data panel labelWidth)[i]? = some bar ∧
        e ∈ row datum bar (palette.color i) := by
  simp only [render, List.mem_append, mem_flatten_mapIdx, List.getElem?_zip_eq_some]
  constructor
  · rintro (h | ⟨i, ⟨datum, bar⟩, ⟨hdatum, hbar⟩, he⟩)
    · exact Or.inl h
    · exact Or.inr ⟨i, datum, bar, hdatum, hbar, he⟩
  · rintro (h | ⟨i, datum, bar, hdatum, hbar, he⟩)
    · exact Or.inl h
    · exact Or.inr ⟨i, (datum, bar), ⟨hdatum, hbar⟩, he⟩

end Bar

namespace Donut

variable {options : Options α}

theorem sliceElement_spec (ring : Ring α) (allZero : Bool) (palette : Palette) (slice : Slice α) :
    (sliceElement ring allZero palette slice).shape =
        .sector ⟨ring.center, ring.inner, ring.outer, slice.start, slice.finish⟩ ∧
      (sliceElement ring allZero palette slice).target = some (.datum slice.datum) := by
  unfold sliceElement
  by_cases hzero : slice.isNearZero = true
  · simp [hzero, Element.bind, Element.aim, Element.dashed, Element.stroke, Element.fill, Element.enter,
      Element.role, Element.ofShape]
  · by_cases hall : allZero = true
    · simp [hzero, hall, Element.bind, Element.aim, Element.stroke, Element.fill, Element.enter,
        Element.role, Element.ofShape]
    · simp [hzero, hall, Element.bind, Element.aim, Element.fill, Element.enter, Element.role,
        Element.ofShape]

/-- Every slice sweeps in. -/
theorem sliceElement_transition (ring : Ring α) (allZero : Bool) (palette : Palette) (slice : Slice α) :
    (sliceElement ring allZero palette slice).transition = some ⟨.sweepAngles, entrance⟩ := by
  unfold sliceElement
  by_cases hzero : slice.isNearZero = true
  · simp only [hzero]
    rfl
  · by_cases hall : allZero = true
    · simp only [hzero, hall]
      rfl
    · simp only [hzero, hall]
      rfl

theorem target_of_mem_legendRow {left : α} {i : Nat} {datum : Datum α} {color : Rgb}
    (h : e ∈ legendRow panel left i datum color) : e.target = none := by
  rcases List.mem_cons.1 h with rfl | h
  · rfl
  · rw [List.mem_singleton.1 h]
    rfl

/-- The hole holds texts of their own role, and no target. -/
theorem center_spec {ring : Ring α} {total : α} {color : Rgb} (h : e ∈ center ring options total color) :
    e.target = none ∧ e.style.role = some "donut-highlight-text" ∧ ∃ label, e.shape = .text label := by
  unfold center at h
  split at h
  · cases h
  · cases h
  · rcases List.mem_cons.1 h with rfl | h
    · exact ⟨rfl, rfl, _, rfl⟩
    · rw [List.mem_singleton.1 h]
      exact ⟨rfl, rfl, _, rfl⟩

variable [Trig α]

theorem map_datum_slicesFrom (whole : α) (index : Nat) (angle : α) (data : List (Datum α)) :
    (slicesFrom whole index angle data).map (·.datum) = data := by
  induction data generalizing index angle with
  | nil => rfl
  | cons datum rest ih => rw [slicesFrom, List.map_cons, ih]

theorem map_datum_slices (data : List (Datum α)) : (pie data).slices.map (·.datum) = data :=
  map_datum_slicesFrom _ _ _ _

theorem mem_render : e ∈ (render data title panel options palette).elements ↔
    e ∈ (panelLayer title panel).elements ∨
      (∃ slice ∈ (pie data).slices,
        e = sliceElement (ring panel options.sideLabels) (pie data).allZero palette slice) ∨
      (options.sideLabels = true ∧ ∃ i datum, data[i]? = some datum ∧
        e ∈ legendRow panel (panel.x1 + panel.margin + (ring panel options.sideLabels).outer * 2 + 30) i
          datum (palette.color i)) ∨
      e ∈ center (ring panel options.sideLabels) options (pie data).total palette.primary := by
  have hside : ∀ l : List (Element α), e ∈ (if options.sideLabels then l else []) ↔
      options.sideLabels = true ∧ e ∈ l := by
    intro l
    split <;> simp_all
  have hslices : (∃ slice ∈ (pie data).slices,
      sliceElement (ring panel options.sideLabels) (pie data).allZero palette slice = e) ↔
      ∃ slice ∈ (pie data).slices,
        e = sliceElement (ring panel options.sideLabels) (pie data).allZero palette slice := by
    simp only [eq_comm]
  simp only [render, List.mem_append, List.mem_map, hside, legend, mem_flatten_mapIdx, hslices, or_assoc]

end Donut

variable [Trig α]

/-- **What can be hit of a chart are its data.** -/
theorem PlannedChart.target_iff {c : PlannedChart α} {target : Target α} :
    (∃ e ∈ (c.render panel palette).elements, e.target = some target) ↔
      ∃ datum ∈ c.data, target = .datum datum := by
  obtain ⟨title, data, kind⟩ := c
  cases kind with
  | bar labelWidth =>
    simp only [PlannedChart.render, Bar.mem_render]
    constructor
    · rintro ⟨e, h | ⟨i, datum, bar, hdatum, -, he⟩, htarget⟩
      · rw [target_of_mem_panelLayer h] at htarget
        cases htarget
      · refine ⟨datum, List.mem_of_getElem? hdatum, ?_⟩
        simp only [Bar.row, List.mem_cons, List.not_mem_nil, or_false] at he
        rcases he with rfl | rfl | rfl <;> cases htarget
        rfl
    · rintro ⟨datum, hdatum, rfl⟩
      obtain ⟨i, hi⟩ := List.mem_iff_getElem?.1 hdatum
      have hlt : i < (Bar.placements data panel labelWidth).length := by
        rw [Bar.length_placements]
        exact (List.getElem?_eq_some_iff.1 hi).1
      refine ⟨_, Or.inr ⟨i, datum, _, hi, List.getElem?_eq_getElem hlt, .tail _ (.head _)⟩, rfl⟩
  | donut options =>
    simp only [PlannedChart.render, Donut.mem_render]
    constructor
    · rintro ⟨e, h | ⟨slice, hslice, rfl⟩ | ⟨-, i, datum, -, he⟩ | h, htarget⟩
      · rw [target_of_mem_panelLayer h] at htarget
        cases htarget
      · rw [(Donut.sliceElement_spec _ _ _ _).2] at htarget
        cases htarget
        refine ⟨slice.datum, ?_, rfl⟩
        rw [← Donut.map_datum_slices data]
        exact List.mem_map_of_mem hslice
      · rw [Donut.target_of_mem_legendRow he] at htarget
        cases htarget
      · rw [(Donut.center_spec h).1] at htarget
        cases htarget
    · rintro ⟨datum, hdatum, rfl⟩
      rw [← Donut.map_datum_slices data] at hdatum
      obtain ⟨slice, hslice, rfl⟩ := List.mem_map.1 hdatum
      exact ⟨_, Or.inr (Or.inl ⟨slice, hslice, rfl⟩), (Donut.sliceElement_spec _ _ _ _).2⟩

/-! ## Plans -/

theorem renderPlan_grid (palette : Palette) (plan : List (PlannedChart α)) (grid : PanelGrid α) :
    (renderPlan palette plan grid).2 = { grid with allocated := grid.allocated + plan.length } := by
  induction plan generalizing grid with
  | nil => rfl
  | cons chart rest ih =>
    rw [renderPlan]
    simp only [ih, PanelGrid.allocate, List.length_cons, Nat.add_assoc, Nat.add_comm 1]

/-- The layers of a plan are its charts, each in the panel of its place in the plan. -/
theorem mem_renderPlan {plan : List (PlannedChart α)} {grid : PanelGrid α} {layer : Layer α} :
    layer ∈ (renderPlan palette plan grid).1 ↔ ∃ i, ∃ chart : PlannedChart α, plan[i]? = some chart ∧
      layer = chart.render (Panel.place (grid.allocated + i) grid.available grid.left) palette := by
  induction plan generalizing grid with
  | nil => simp [renderPlan]
  | cons chart rest ih =>
    rw [renderPlan, List.mem_cons, ih]
    constructor
    · rintro (rfl | ⟨i, c, hc, rfl⟩)
      · exact ⟨0, chart, rfl, rfl⟩
      · exact ⟨i + 1, c, hc, by simp [PanelGrid.allocate, Nat.add_assoc, Nat.add_comm 1]⟩
    · rintro ⟨i, c, hc, rfl⟩
      cases i with
      | zero =>
        cases hc
        exact Or.inl rfl
      | succ i => exact Or.inr ⟨i, c, hc, by simp [PanelGrid.allocate, Nat.add_assoc, Nat.add_comm 1]⟩

end QueueBoard
