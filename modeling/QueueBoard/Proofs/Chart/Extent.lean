import QueueBoard.Proofs.Chart.Elements
import QueueBoard.Proofs.Scalar.Rational
import Mathlib.Algebra.Order.Ring.Abs
import Mathlib.Tactic.FieldSimp
import Mathlib.Tactic.Ring
/-!
# How far charts reach

In exact arithmetic. Whatever of a chart the pointer can hit lies right of its panel's left edge
(`PlannedChart.left_le_of_contains`). Upwards a chart keeps to its panel, but for its title; downwards
it reaches to its `bottom`, exactly: the panel's lower edge, unless the rows of a legend go on below
it (`PlannedChart.extent_mem`, `PlannedChart.bottom_reached`).
-/

namespace QueueBoard

/-- The upper and the lower end of what a chart draws: of a rectangle, of a sector's ring, and of the
place of a text in a legend. -/
def Element.extent? (e : Element ℚ) : Option (ℚ × ℚ) :=
  match e.shape with
  | .rect origin _ height => some (origin.y, origin.y + height)
  | .sector wedge => some (wedge.center.y - wedge.outer, wedge.center.y + wedge.outer)
  | .text label =>
    if e.style.role = some "side-label" then some (label.position.y, label.position.y) else none
  | .line .. | .circle .. | .path _ => none

namespace Panel

/-- A panel of the grid's size and margin. -/
structure OfGrid (p : Panel ℚ) : Prop where
  right : p.x2 = p.x1 + 400
  lower : p.y2 = p.y1 + 300
  margin : p.margin = 10

theorem OfGrid.height {p : Panel ℚ} (h : p.OfGrid) : p.height = 300 := by
  rw [Panel.height, h.lower]
  ring

theorem place_ofGrid (index : Nat) (available left : ℚ) : (place index available left).OfGrid :=
  ⟨rfl, rfl, rfl⟩

theorem left_le_place (index : Nat) (available left : ℚ) : left + 30 ≤ (place index available left).x1 := by
  have hcolumn : (0 : ℚ) ≤ ((index % perRow available : Nat) : ℚ) := Nat.cast_nonneg _
  simp only [place, Scalar.ofNat_rat, gap, gridWidth]
  linarith

theorem place_y1 (index : Nat) (available left : ℚ) :
    (place index available left).y1 = 30 + 330 * ((index / perRow available : Nat) : ℚ) := by
  simp only [place, Scalar.ofNat_rat, gap, gridHeight]
  ring

end Panel

/-- The title reaches nowhere, and the frame is the panel's edge. -/
theorem extent_of_mem_panelLayer {title : String} {panel : Panel ℚ} {e : Element ℚ} {top bottom : ℚ}
    (hp : panel.OfGrid) (h : e ∈ (panelLayer title panel).elements) (hx : e.extent? = some (top, bottom)) :
    top = panel.y1 ∧ bottom = panel.y2 := by
  have hheight := hp.height
  have hlower := hp.lower
  rcases List.mem_cons.1 h with rfl | h
  · simp [Element.extent?, Element.fill, Element.role, Element.fontSize, Element.anchor, Shape.label,
      Element.ofShape] at hx
  · rw [List.mem_singleton.1 h] at hx
    simp only [Element.extent?, Element.stroke, Element.role, Element.ofShape, Option.some.injEq,
      Prod.mk.injEq] at hx
    exact ⟨hx.1.symm, by linarith [hx.2]⟩

namespace Bar

variable {data : List (Datum ℚ)} {title : String} {panel : Panel ℚ} {labelWidth : ℚ} {palette : Palette}
  {e : Element ℚ}

/-- From the first bar to the last there is just the room that the last one's own height leaves. -/
theorem pitch_mul_last (panel : Panel ℚ) {n : Nat} (hn : 2 ≤ n) :
    (gap panel n + 30) * ((n - 1 : Nat) : ℚ) = panel.height - 2 * panel.margin - 30 - 30 := by
  have hcast : ((n - 1 : Nat) : ℚ) = n - 1 := by
    rw [Nat.cast_sub (by omega), Nat.cast_one]
  have hpos : (n : ℚ) - 1 ≠ 0 := by
    have : (2 : ℚ) ≤ n := by exact_mod_cast hn
    linarith
  simp only [gap, Nat.not_lt.2 hn, if_false, titleRoom, barHeight, Scalar.ofNat_rat, hcast]
  field_simp
  ring

/-- The rows of a bar chart spread over 220, however many there are. -/
theorem pitch_mul_mem (hp : panel.OfGrid) {n i : Nat} (hi : i < n) :
    0 ≤ (gap panel n + 30) * (i : ℚ) ∧ (gap panel n + 30) * (i : ℚ) ≤ 220 := by
  by_cases hn : n < 2
  · have hzero : i = 0 := by omega
    simp [hzero]
  · -- the last row is `n - 1`, and none is farther down
    have hi' : (i : ℚ) ≤ ((n - 1 : Nat) : ℚ) := by exact_mod_cast Nat.le_sub_one_of_lt hi
    have hpos : (0 : ℚ) < ((n - 1 : Nat) : ℚ) := by
      have : 0 < n - 1 := by omega
      exact_mod_cast this
    have hlast : (gap panel n + 30) * ((n - 1 : Nat) : ℚ) = 220 := by
      rw [pitch_mul_last panel (Nat.le_of_not_lt hn), hp.height, hp.margin]
      norm_num
    have hpitch : 0 ≤ gap panel n + 30 := by
      refine le_of_mul_le_mul_right ?_ hpos
      rw [zero_mul, hlast]
      norm_num
    exact ⟨mul_nonneg hpitch (Nat.cast_nonneg i), (mul_le_mul_of_nonneg_left hi' hpitch).trans_eq hlast⟩

theorem extent_inside (hp : panel.OfGrid) (h : e ∈ (render data title panel labelWidth palette).elements)
    {top bottom : ℚ} (hx : e.extent? = some (top, bottom)) :
    panel.y1 ≤ top ∧ top ≤ bottom ∧ bottom ≤ panel.y2 := by
  have hlower := hp.lower
  rcases mem_render.1 h with h | ⟨i, datum, bar, -, hbar, he⟩
  · obtain ⟨rfl, rfl⟩ := extent_of_mem_panelLayer hp h hx
    exact ⟨le_refl _, by linarith, le_refl _⟩
  · obtain ⟨hi, -, hheight, hy⟩ := placements_spec hbar
    obtain ⟨hlow, hhigh⟩ := pitch_mul_mem hp hi
    have hy' : bar.y = panel.y1 + 30 + 10 + (gap panel data.length + 30) * (i : ℚ) := by
      rw [hy, hp.margin]
      rfl
    have hheight' : bar.height = 30 := hheight
    simp only [row, List.mem_cons, List.not_mem_nil, or_false] at he
    rcases he with rfl | rfl | rfl
    · simp [Element.extent?, captionAt, Element.role, Element.fill, Shape.label, Element.ofShape] at hx
    · simp only [Element.extent?, Element.bind, Element.aim, Element.enter, Element.role, Element.fill,
        Element.ofShape, Option.some.injEq, Prod.mk.injEq] at hx
      obtain ⟨htop, hbottom⟩ := hx
      refine ⟨?_, ?_, ?_⟩ <;> linarith
    · simp [Element.extent?, captionAt, Element.role, Element.fill, Shape.label, Element.ofShape] at hx

theorem left_le_of_mem_row {i : Nat} {datum : Datum ℚ} {bar : Placement ℚ} {color : Rgb} {p : Point ℚ}
    [Trig ℚ] (hp : panel.OfGrid) (hlabel : 0 ≤ labelWidth)
    (hbar : (placements data panel labelWidth)[i]? = some bar) (he : e ∈ row datum bar color)
    (htarget : e.target.isSome) (hunder : e.shape.contains p = true) : panel.x1 ≤ p.x := by
  obtain ⟨-, hx, -, -⟩ := placements_spec hbar
  simp only [row, List.mem_cons, List.not_mem_nil, or_false] at he
  rcases he with rfl | rfl | rfl
  · cases htarget
  · have hbox : Bounds.contains ⟨bar.x, bar.y, bar.width, bar.height⟩ p = true := hunder
    simp only [Bounds.contains, Bool.and_eq_true, decide_eq_true_eq] at hbox
    linarith [hbox.1.1.1, hp.margin]
  · cases htarget

end Bar

/-- A point of a sector is no farther from its center than the outer radius. -/
theorem Sector.left_le_of_contains [Trig ℚ] {s : Sector ℚ} {p : Point ℚ} (h : s.contains p = true) :
    s.center.x - s.outer ≤ p.x := by
  unfold Sector.contains at h
  by_cases hlong : Scalar.longer (p.x - s.center.x) (p.y - s.center.y) s.outer = true
  · simp [hlong] at h
  · rw [Scalar.longer_rat, not_or, not_lt, not_lt] at hlong
    obtain ⟨houter, hnear⟩ := hlong
    -- the longer leg is no longer than the hypotenuse
    have hsquare : (p.x - s.center.x) ^ 2 ≤ s.outer ^ 2 := by
      linarith [sq_nonneg (p.y - s.center.y)]
    linarith [(abs_le.1 (abs_le_of_sq_le_sq hsquare houter)).1]

namespace Donut

variable {data : List (Datum ℚ)} {title : String} {panel : Panel ℚ} {options : Options ℚ}
  {palette : Palette} {e : Element ℚ} {top bottom : ℚ}

theorem ring_spec (hp : panel.OfGrid) (sideLabels : Bool) :
    (ring panel sideLabels).outer = 115 ∧ (ring panel sideLabels).center.y = panel.y1 + 175 ∧
      panel.x1 + 125 ≤ (ring panel sideLabels).center.x := by
  have houter : (ring panel sideLabels).outer = 115 := by
    simp only [ring, hp.height, hp.margin, titleRoom, Scalar.max_rat]
    norm_num
  have hy : (ring panel sideLabels).center.y =
      panel.y1 + 50 + panel.margin + (ring panel sideLabels).outer := rfl
  refine ⟨houter, by rw [hy, hp.margin, houter]; ring, ?_⟩
  cases sideLabels with
  | false =>
    have hx : (ring panel false).center.x = (panel.x1 + panel.x2) / 2 := rfl
    rw [hx, hp.right]
    linarith
  | true =>
    have hx : (ring panel true).center.x = panel.x1 + panel.margin + (ring panel true).outer := rfl
    rw [hx, hp.margin, houter]
    linarith

theorem extent_sliceElement (hp : panel.OfGrid) {sideLabels allZero : Bool} {slice : Slice ℚ}
    (hx : (sliceElement (ring panel sideLabels) allZero palette slice).extent? = some (top, bottom)) :
    top = panel.y1 + 60 ∧ bottom = panel.y1 + 290 := by
  obtain ⟨houter, hy, -⟩ := ring_spec hp sideLabels
  rw [Element.extent?, (sliceElement_spec _ _ _ _).1] at hx
  simp only [Option.some.injEq, Prod.mk.injEq] at hx
  constructor <;> linarith [hx.1, hx.2]

/-- The rows of a legend follow one another every 25. -/
theorem extent_of_mem_legendRow (hp : panel.OfGrid) {left : ℚ} {i : Nat} {datum : Datum ℚ} {color : Rgb}
    (h : e ∈ legendRow panel left i datum color) (hx : e.extent? = some (top, bottom)) :
    panel.y1 + 60 + 25 * i ≤ top ∧ top ≤ bottom ∧ bottom ≤ panel.y1 + 75 + 25 * i := by
  have hy : panel.y1 + titleRoom + (swatch + swatchGap) * Scalar.ofNat i + panel.margin =
      panel.y1 + 60 + 25 * (i : ℚ) := by
    simp only [titleRoom, swatch, swatchGap, hp.margin, Scalar.ofNat_rat]
    ring
  rcases List.mem_cons.1 h with rfl | h
  · simp only [Element.extent?, Element.role, Element.fill, Element.ofShape, hy, Option.some.injEq,
      Prod.mk.injEq] at hx
    have hswatch : (swatch : ℚ) = 15 := rfl
    obtain ⟨htop, hbottom⟩ := hx
    refine ⟨?_, ?_, ?_⟩ <;> linarith
  · rw [List.mem_singleton.1 h] at hx
    simp only [Element.extent?, captionAt, Element.role, Element.fill, Shape.label, Element.ofShape, hy,
      if_true, Option.some.injEq, Prod.mk.injEq] at hx
    have hswatch : (swatch : ℚ) = 15 := rfl
    obtain ⟨htop, hbottom⟩ := hx
    refine ⟨?_, ?_, ?_⟩ <;> linarith

end Donut

namespace PlannedChart

/-- The number of rows in a chart's legend. -/
def legendLength (c : PlannedChart ℚ) : Nat :=
  match c.kind with
  | .bar _ => 0
  | .donut options => if options.sideLabels then c.data.length else 0

theorem legendLength_le (c : PlannedChart ℚ) : c.legendLength ≤ c.data.length := by
  unfold legendLength
  split
  · exact Nat.zero_le _
  · split
    · exact Nat.le_refl _
    · exact Nat.zero_le _

/-- How far down a chart reaches. -/
def bottom (c : PlannedChart ℚ) (panel : Panel ℚ) : ℚ :=
  max panel.y2 (panel.y1 + 50 + 25 * c.legendLength)

variable [Trig ℚ] {c : PlannedChart ℚ} {panel : Panel ℚ} {palette : Palette} {e : Element ℚ}

theorem left_le_of_contains (hp : panel.OfGrid) (hlabel : ∀ w, c.kind = .bar w → 0 ≤ w)
    (h : e ∈ (c.render panel palette).elements) (htarget : e.target.isSome) {p : Point ℚ}
    (hunder : e.shape.contains p = true) : panel.x1 ≤ p.x := by
  obtain ⟨title, data, kind⟩ := c
  cases kind with
  | bar labelWidth =>
    rcases Bar.mem_render.1 h with h | ⟨i, datum, bar, -, hbar, he⟩
    · rw [target_of_mem_panelLayer h] at htarget
      cases htarget
    · exact Bar.left_le_of_mem_row hp (hlabel labelWidth rfl) hbar he htarget hunder
  | donut options =>
    rcases Donut.mem_render.1 h with h | ⟨slice, -, rfl⟩ | ⟨-, i, datum, -, he⟩ | h
    · rw [target_of_mem_panelLayer h] at htarget
      cases htarget
    · obtain ⟨houter, -, hx⟩ := Donut.ring_spec hp options.sideLabels
      rw [(Donut.sliceElement_spec _ _ _ _).1] at hunder
      have hnear := Sector.left_le_of_contains hunder
      linarith
    · rw [Donut.target_of_mem_legendRow he] at htarget
      cases htarget
    · rw [(Donut.center_spec h).1] at htarget
      cases htarget

/-- A chart keeps between its panel's upper edge and its bottom; and what is no part of a legend keeps
to the panel. -/
theorem extent_mem (hp : panel.OfGrid) (h : e ∈ (c.render panel palette).elements) {top foot : ℚ}
    (hx : e.extent? = some (top, foot)) :
    panel.y1 ≤ top ∧ top ≤ foot ∧ foot ≤ c.bottom panel ∧
      (e.style.role ≠ some "swatch" → e.style.role ≠ some "side-label" → foot ≤ panel.y2) := by
  have hlower := hp.lower
  have hedge : panel.y2 ≤ c.bottom panel := le_max_left _ _
  obtain ⟨title, data, kind⟩ := c
  cases kind with
  | bar labelWidth =>
    obtain ⟨htop, hle, hfoot⟩ := Bar.extent_inside hp h hx
    exact ⟨htop, hle, hfoot.trans hedge, fun _ _ => hfoot⟩
  | donut options =>
    rcases Donut.mem_render.1 h with h | ⟨slice, -, rfl⟩ | ⟨hside, i, datum, hi, he⟩ | h
    · obtain ⟨rfl, rfl⟩ := extent_of_mem_panelLayer hp h hx
      exact ⟨le_refl _, by linarith, hedge, fun _ _ => le_refl _⟩
    · obtain ⟨rfl, rfl⟩ := Donut.extent_sliceElement hp hx
      exact ⟨by linarith, by linarith, by linarith, fun _ _ => by linarith⟩
    · obtain ⟨htop, hle, hfoot⟩ := Donut.extent_of_mem_legendRow hp he hx
      have hrows : panel.y1 + 50 + 25 * (data.length : ℚ) ≤
          bottom ⟨title, data, .donut options⟩ panel := by
        have hlength : legendLength ⟨title, data, .donut options⟩ = data.length := if_pos hside
        rw [PlannedChart.bottom, hlength]
        exact le_max_right _ _
      have hlast : (i : ℚ) + 1 ≤ data.length := by
        exact_mod_cast (List.getElem?_eq_some_iff.1 hi).1
      have hrow : (0 : ℚ) ≤ i := Nat.cast_nonneg i
      refine ⟨by linarith, hle, by linarith, fun hswatch hlabel => ?_⟩
      rcases List.mem_cons.1 he with rfl | he
      · exact absurd rfl hswatch
      · rw [List.mem_singleton.1 he] at hlabel
        exact absurd rfl hlabel
    · obtain ⟨-, hrole, label, hshape⟩ := Donut.center_spec h
      simp [Element.extent?, hshape, hrole] at hx

theorem frame_mem (hp : panel.OfGrid) :
    ∃ e ∈ (c.render panel palette).elements, ∃ top, e.extent? = some (top, panel.y2) := by
  have hframe : ∀ title, ∃ e ∈ (panelLayer title panel).elements, ∃ top, e.extent? = some (top, panel.y2) := by
    refine fun title => ⟨_, .tail _ (.head _), panel.y1, ?_⟩
    simp only [Element.extent?, Element.stroke, Element.role, Element.ofShape, hp.height, hp.lower]
  obtain ⟨e, he, hx⟩ := hframe c.title
  obtain ⟨title, data, kind⟩ := c
  cases kind with
  | bar labelWidth => exact ⟨e, Bar.mem_render.2 (Or.inl he), hx⟩
  | donut options => exact ⟨e, Donut.mem_render.2 (Or.inl he), hx⟩

/-- A chart does reach to its bottom: with its frame, or with the last row of its legend. -/
theorem bottom_reached (c : PlannedChart ℚ) (palette : Palette) (hp : panel.OfGrid) :
    ∃ e ∈ (c.render panel palette).elements, ∃ top, e.extent? = some (top, c.bottom panel) := by
  by_cases hfit : panel.y1 + 50 + 25 * (c.legendLength : ℚ) ≤ panel.y2
  · rw [bottom, max_eq_left hfit]
    exact frame_mem hp
  · -- a legend longer than the panel is not empty: its last swatch is the lowest element
    rw [bottom, max_eq_right (le_of_not_ge hfit)]
    have hsome : c.legendLength ≠ 0 := by
      intro hzero
      rw [hzero, hp.lower] at hfit
      exact hfit (by norm_num)
    obtain ⟨title, data, kind⟩ := c
    cases kind with
    | bar labelWidth => exact absurd rfl hsome
    | donut options =>
      by_cases hside : options.sideLabels = true
      · have hlength : legendLength ⟨title, data, .donut options⟩ = data.length := if_pos hside
        rw [hlength] at hsome ⊢
        have hlast : data.length - 1 < data.length := by omega
        refine ⟨_, Donut.mem_render.2 (Or.inr (Or.inr (Or.inl ⟨hside, data.length - 1, data[data.length - 1],
          List.getElem?_eq_getElem hlast, .head _⟩))), panel.y1 + 60 + 25 * ((data.length - 1 : Nat) : ℚ), ?_⟩
        have hcast : ((data.length - 1 : Nat) : ℚ) = data.length - 1 := by
          rw [Nat.cast_sub (by omega), Nat.cast_one]
        simp only [Element.extent?, Element.role, Element.fill, Element.ofShape, hp.margin, Donut.titleRoom,
          Donut.swatch, Donut.swatchGap, Scalar.ofNat_rat, hcast, Option.some.injEq, Prod.mk.injEq]
        constructor <;> ring
      · exact absurd (if_neg hside) hsome

end PlannedChart

end QueueBoard
