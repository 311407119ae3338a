import QueueBoard.Proofs.Scene.Tooltip
import QueueBoard.Proofs.Terminal.Cells
/-!
# Where tooltips go

In exact arithmetic. A tooltip that is drawn takes up a line of the area with its anchor's column in it, be the
text longer than the area or the anchor at its last column. One that the pointer has set is drawn for every cell of
the area: two rows above the pointer's cell, or in the first row if that is nearer
(`Viewport.placement_anchored`).
-/

namespace QueueBoard

namespace TooltipController

variable {α : Type} [Scalar α] [Trig α] {pointer : Point α} {c : TooltipController α}

/-- A controller just after the pointer came to a point. -/
inductive SetBy (pointer : Point α) : TooltipController α → Prop where
  | enter (c : TooltipController α) : SetBy pointer (c.enter pointer)
  | move (c : TooltipController α) (datum : Datum α) : SetBy pointer (c.move datum pointer)
  | track (c : TooltipController α) (scene : Scene α) : SetBy pointer (c.track scene pointer)

/-- A label that is drawn then floats above the pointer. -/
theorem SetBy.position (hzero : ¬ (0 : α) < 0) (h : c.SetBy pointer) (hvisible : c.tooltip.isVisible = true) :
    c.tooltip.position = pointer.offset 0 (-28) := by
  cases h with
  | enter c => rfl
  | move c datum => rfl
  | track c scene =>
    by_cases hdatum : ∃ datum, scene.targetAt pointer = some (.datum datum)
    · obtain ⟨datum, hdatum⟩ := hdatum
      rw [(c.track_datum hdatum).1]
    · have haside := (c.track_aside hzero (not_exists.1 hdatum)).1
      rw [hvisible] at haside
      cases haside

end TooltipController

namespace Terminal

namespace Area

/-- One area wholly inside another. -/
structure Within (inner outer : Area) : Prop where
  left : outer.x ≤ inner.x
  right : inner.x + inner.width ≤ outer.x + outer.width
  top : outer.y ≤ inner.y
  bottom : inner.y + inner.height ≤ outer.y + outer.height

/-- A column that crosses the area. -/
def Spans (a : Area) (column : Nat) : Prop := a.x ≤ column ∧ column < a.x + a.width

end Area

namespace Viewport

variable {v : Viewport ℚ} {area place : Area} {p pointer : Point ℚ} {tooltip : Tooltip ℚ} {column row : Nat}

/-- The point that a tooltip is put at: its position, or the one below it in the first visible row. -/
def anchor (v : Viewport ℚ) (tooltip : Tooltip ℚ) : Point ℚ :=
  ⟨tooltip.position.x, max tooltip.position.y v.scroll⟩

/-- The columns that a tooltip takes up, as an area of one row. -/
def lineAt (area : Area) (length column row : Nat) : Area :=
  let width := min (min (length + 2) maxCell) area.width
  { x := max (min column (area.right - width)) area.x, y := row, width, height := 1 }

theorem placement_of_isVisible (h : tooltip.isVisible = true) : v.placement tooltip area =
    (v.toCell area (v.anchor tooltip)).map fun (column, row) => lineAt area tooltip.text.length column row := by
  rw [placement, if_neg (by simp [h])]
  rfl

theorem placement_eq_some_iff : v.placement tooltip area = some place ↔ tooltip.isVisible = true ∧
    ∃ column row, v.toCell area (v.anchor tooltip) = some (column, row) ∧
      lineAt area tooltip.text.length column row = place := by
  cases h : tooltip.isVisible with
  | false => simp [placement, h]
  | true => simp [placement_of_isVisible h]

/-! ## Lines -/

theorem lineAt_within {length : Nat} (habove : area.y ≤ row) (hbelow : row < area.y + area.height) :
    (lineAt area length column row).Within area := by
  have hright : area.right ≤ area.x + area.width := Nat.min_le_left _ _
  constructor <;> dsimp only [lineAt] <;> omega

/-- Moved to the left as far as it takes, the line still reaches its column. -/
theorem lineAt_spans {length : Nat} (hleft : area.x ≤ column) (hright : column < area.right) :
    (lineAt area length column row).Spans column := by
  have hedge : area.right ≤ area.x + area.width := Nat.min_le_left _ _
  dsimp only [lineAt, Area.Spans, maxCell]
  omega

/-! ## Anchors -/

/-- The cell that shows a point is in the area. -/
theorem toCell_inside (h : v.toCell area p = some (column, row)) :
    (area.x ≤ column ∧ column < area.x + area.width) ∧ area.y ≤ row ∧ row < area.y + area.height := by
  simp only [toCell] at h
  split at h
  · cases h
  · rename_i hinside
    simp only [not_or] at hinside
    obtain ⟨hleft, habove, hright, hbelow⟩ := hinside
    obtain ⟨hcolumn, -⟩ := Scalar.center_of_floor cellWidth_pos hleft hright
    obtain ⟨hrow, -⟩ := Scalar.center_of_floor cellHeight_pos habove hbelow
    obtain ⟨rfl, rfl⟩ := Prod.mk.inj (Option.some.inj h)
    exact ⟨⟨Nat.le_add_right _ _, Nat.add_lt_add_left hcolumn _⟩, Nat.le_add_right _ _,
      Nat.add_lt_add_left hrow _⟩

/-- Above the pointer, or in the first row if that is nearer: 28 points above the center of a row is the row two
rows above it, and what is scrolled out of sight is moved into the first row. -/
theorem floor_above (scroll : ℚ) (j : Nat) :
    (Scalar.floor ((max (scroll + j * 16 + 8 - 28) scroll - scroll) / 16) : ℚ) = Scalar.ofNat (j - 2) := by
  have hsize : (0 : ℚ) < 16 := by norm_num
  by_cases hnear : j < 2
  · have hfirst : j - 2 = 0 := by omega
    have hj : (j : ℚ) ≤ 1 := by exact_mod_cast Nat.le_of_lt_succ hnear
    have hscrolled : max (scroll + j * 16 + 8 - 28) scroll = scroll := max_eq_right (by linarith)
    rw [hscrolled, hfirst]
    exact Scalar.floor_div_eq_ofNat hsize (by norm_num) (by norm_num)
  · obtain ⟨k, rfl⟩ := Nat.exists_eq_add_of_le (Nat.not_lt.1 hnear)
    have hk : (0 : ℚ) ≤ k := Nat.cast_nonneg k
    have habove : max (scroll + (2 + k : ℕ) * 16 + 8 - 28) scroll = scroll + k * 16 + 12 := by
      rw [Nat.cast_add, Nat.cast_ofNat, max_eq_left (by linarith)]
      ring
    rw [habove, Nat.add_sub_cancel_left]
    exact Scalar.floor_div_eq_ofNat hsize (by linarith) (by linarith)

theorem toCell_anchor (h : v.toScene area column row = some pointer)
    (hposition : tooltip.position = pointer.offset 0 (-28)) :
    v.toCell area (v.anchor tooltip) = some (column, Max.max area.y (row - 2)) ∧ column < area.right := by
  obtain ⟨hinside, hpointer⟩ := Option.ite_none_right_eq_some.1 h
  simp only [Area.contains, Bool.and_eq_true, decide_eq_true_eq] at hinside
  obtain ⟨⟨⟨hleft, hright⟩, habove⟩, hbelow⟩ := hinside
  have hwidth : column < area.x + area.width := hright.trans_le (Nat.min_le_left _ _)
  have hheight : row < area.y + area.height := hbelow.trans_le (Nat.min_le_left _ _)
  obtain ⟨i, rfl⟩ := Nat.exists_eq_add_of_le hleft
  obtain ⟨j, rfl⟩ := Nat.exists_eq_add_of_le habove
  rw [Nat.add_sub_cancel_left, Nat.add_sub_cancel_left] at hpointer
  have hx : (v.anchor tooltip).x = Scalar.ofNat i * cellWidth + cellWidth / 2 := by
    rw [anchor, hposition, ← Option.some.inj hpointer]
    exact add_zero _
  have hy : (v.anchor tooltip).y = max (v.scroll + j * 16 + 8 - 28) v.scroll := by
    have habove : v.scroll + (j : ℚ) * (16 : ℕ) + (16 : ℕ) / (2 : ℕ) + -(28 : ℕ) = v.scroll + j * 16 + 8 - 28 := by
      norm_num
      ring
    rw [anchor, hposition, ← Option.some.inj hpointer]
    exact congrArg (max · v.scroll) habove
  have hrow : area.y + (j - 2) = max area.y (area.y + j - 2) := by omega
  refine ⟨?_, hright⟩
  rw [← hrow]
  refine toCell_of_floor (Nat.lt_of_add_lt_add_left hwidth) (by omega) ?_ ?_
  · rw [hx]
    exact Scalar.floor_center cellWidth_pos i
  · rw [hy]
    exact floor_above v.scroll j

/-- **A tooltip that is shown is placed well.** One that is hidden takes up nothing. Otherwise what it takes up is one
row of the area, no wider than the text and a blank on either side, in the row of its anchor and, in an area that
fits the terminal, across the column of its anchor. Set by the pointer on a cell of the area, it is placed: two rows
above the cell, or in the first row if the cell is in one of the first two, and across the cell's column. -/
theorem placement_anchored [Trig ℚ] (v : Viewport ℚ) (area : Area) :
    (∀ tooltip : Tooltip ℚ, tooltip.isVisible = false → v.placement tooltip area = none) ∧
    (∀ (tooltip : Tooltip ℚ) (place : Area), v.placement tooltip area = some place →
      place.height = 1 ∧ place.Within area ∧ place.width ≤ tooltip.text.length + 2 ∧
      ∃ column, v.toCell area (v.anchor tooltip) = some (column, place.y) ∧ (area.Fits → place.Spans column)) ∧
    ∀ column row pointer, v.toScene area column row = some pointer →
      ∀ c : TooltipController ℚ, c.SetBy pointer → c.tooltip.isVisible = true →
        ∃ place, v.placement c.tooltip area = some place ∧ place.y = max area.y (row - 2) ∧ place.Spans column := by
  refine ⟨fun tooltip hhidden => ?_, fun tooltip place hplace => ?_, fun column row pointer hcell c hset hvisible => ?_⟩
  · rw [placement, hhidden]
    rfl
  · obtain ⟨-, column, row, hcell, rfl⟩ := placement_eq_some_iff.1 hplace
    obtain ⟨⟨hleft, hright⟩, habove, hbelow⟩ := toCell_inside hcell
    refine ⟨rfl, lineAt_within habove hbelow, ?_, column, hcell, fun hfits => lineAt_spans hleft ?_⟩
    · exact (Nat.min_le_left _ _).trans (Nat.min_le_left _ _)
    · exact hright.trans_eq (Nat.min_eq_left hfits.width).symm
  · have hzero : ¬ (0 : ℚ) < 0 := lt_irrefl 0
    obtain ⟨hanchor, hright⟩ := toCell_anchor hcell (hset.position hzero hvisible)
    exact ⟨_, placement_eq_some_iff.2 ⟨hvisible, column, _, hanchor, rfl⟩, rfl,
      lineAt_spans (toCell_inside hanchor).1.1 hright⟩

/-- A text longer than the area, set from the second row of a scrolled scene at the last column, and a short one from
a row further down. -/
theorem placement_anchored_scrolled :
    letI : Trig ℚ := .rational
    let v : Viewport ℚ := ⟨100⟩
    let area : Area := { x := 5, y := 3, width := 12, height := 10 }
    let long := TooltipController.fresh.move (α := ℚ) ⟨"a long description", 3⟩ ⟨92, 124⟩
    let short := TooltipController.fresh.move (α := ℚ) ⟨"a", 3⟩ ⟨12, 172⟩
    v.placement TooltipController.fresh.tooltip area = none ∧ area.Fits ∧
      v.toScene area 16 4 = some ⟨92, 124⟩ ∧ long.tooltip.isVisible = true ∧
      (∃ place, v.placement long.tooltip area = some place ∧ place.y = 3 ∧ place.Spans 16 ∧ place.Within area) ∧
      v.toScene area 6 7 = some ⟨12, 172⟩ ∧ short.tooltip.isVisible = true ∧
      ∃ place, v.placement short.tooltip area = some place ∧ place.y = 5 ∧ place.Spans 6 ∧
        place.width ≤ short.tooltip.text.length + 2 := by
  let trig : Trig ℚ := .rational
  intro v area long short
  have hfits : area.Fits := ⟨by decide, by decide⟩
  have hlast : v.toScene area 16 4 = some ⟨92, 124⟩ := by decide +kernel
  have hbelow : v.toScene area 6 7 = some ⟨12, 172⟩ := by decide +kernel
  have hlong : long.tooltip.isVisible = true := by decide +kernel
  have hshort : short.tooltip.isVisible = true := by decide +kernel
  obtain ⟨hhidden, hplaced, hset⟩ := placement_anchored v area
  obtain ⟨place, hplace, hrow, hspans⟩ := hset 16 4 _ hlast long (.move _ _) hlong
  obtain ⟨place', hplace', hrow', hspans'⟩ := hset 6 7 _ hbelow short (.move _ _) hshort
  exact ⟨hhidden _ (by decide +kernel), hfits, hlast, hlong, ⟨place, hplace, hrow, hspans, (hplaced _ _ hplace).2.1⟩,
    hbelow, hshort, place', hplace', hrow', hspans', (hplaced _ _ hplace').2.2.1⟩

end Viewport

end Terminal

end QueueBoard
