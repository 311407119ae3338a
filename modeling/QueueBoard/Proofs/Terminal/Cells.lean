import QueueBoard.Proofs.Scalar.Rational
import QueueBoard.Terminal.Viewport
import Mathlib.Data.Rat.Floor
import Mathlib.Tactic.NormNum
/-!
# Cells and points

In exact arithmetic. Along an axis a length falls into the cell whose number is the floor of its quotient by
the size of a cell, and the center of a cell falls into that cell (`Scalar.floor_center`). So the cells of an
area and the points of a scene correspond, however far the scene is scrolled (`Viewport.cells_correspond`): a
cell shows its own center, and the point that stands for a cell is at most half a cell away from any point
that the cell shows.
-/

namespace QueueBoard

/-! ## One axis -/

namespace Scalar

variable {x size : ℚ}

theorem floor_div_neg_iff (hsize : 0 < size) : (floor (x / size) : ℚ) < 0 ↔ x < 0 := by
  have hfloor : (floor (x / size) : ℚ) < 0 ↔ (x / size).floor < 0 := by
    rw [show (floor (x / size) : ℚ) = ((x / size).floor : ℚ) from rfl]
    exact_mod_cast Iff.rfl
  rw [hfloor, Rat.floor_lt_iff, Int.cast_zero, div_lt_iff₀ hsize, zero_mul]

theorem le_floor_div_iff (hsize : 0 < size) {n : Nat} :
    (ofNat n : ℚ) ≤ floor (x / size) ↔ size * n ≤ x := by
  have hfloor : (ofNat n : ℚ) ≤ floor (x / size) ↔ (n : ℤ) ≤ (x / size).floor := by
    rw [show (floor (x / size) : ℚ) = ((x / size).floor : ℚ) from rfl, ofNat_rat]
    exact_mod_cast Iff.rfl
  rw [hfloor, Rat.le_floor_iff, Int.cast_natCast, le_div_iff₀ hsize, mul_comm]

/-- A length between the edges of a cell falls into this cell. -/
theorem floor_div_eq_ofNat (hsize : 0 < size) {i : Nat} (hlow : i * size ≤ x) (hhigh : x < i * size + size) :
    (floor (x / size) : ℚ) = ofNat i := by
  have hfloor : ⌊x / size⌋ = (i : ℤ) := by
    rw [Int.floor_eq_iff, Int.cast_natCast, le_div_iff₀ hsize, div_lt_iff₀ hsize]
    constructor <;> linarith
  rw [ofNat_rat]
  exact (congrArg Int.cast hfloor).trans (Int.cast_natCast i)

/-- The center of a cell falls into this cell. -/
theorem floor_center (hsize : 0 < size) (i : Nat) :
    (floor ((ofNat i * size + size / 2) / size) : ℚ) = ofNat i := by
  rw [ofNat_rat]
  exact floor_div_eq_ofNat hsize (by linarith) (by linarith)

theorem toNat_ofNat (i : Nat) : toNat (ofNat i : ℚ) = i := by
  have hfloor : (i : ℚ).floor = (i : ℤ) := Rat.floor_intCast i
  show (i : ℚ).floor.toNat = i
  rw [hfloor, Int.toNat_natCast]

/-- The cell of an axis that a length falls into is one of the first `n`, and its center is at most half a
cell away. -/
theorem center_of_floor {n : Nat} (hsize : 0 < size)
    (hlow : ¬ (Scalar.floor (x / size) : ℚ) < 0) (hhigh : ¬ (Scalar.ofNat n : ℚ) ≤ Scalar.floor (x / size)) :
    let i := Scalar.toNat (Scalar.floor (x / size))
    i < n ∧ |(i : ℚ) * size + size / 2 - x| ≤ size / 2 := by
  intro i
  have hfloor : (Scalar.floor (x / size) : ℚ) = ((x / size).floor : ℚ) := rfl
  have hi : (i : ℚ) = ((x / size).floor : ℚ) := by
    have hnonneg : 0 ≤ (x / size).floor := by
      rw [hfloor, not_lt] at hlow
      exact_mod_cast hlow
    have htoNat : i = (x / size).floor.toNat := congrArg Int.toNat (Rat.floor_intCast _)
    rw [htoNat]
    exact_mod_cast Int.toNat_of_nonneg hnonneg
  rw [hfloor, ← hi, Scalar.ofNat_rat, not_le] at hhigh
  refine ⟨by exact_mod_cast hhigh, ?_⟩
  have hle : (i : ℚ) * size ≤ x := by
    rw [hi]
    exact (le_div_iff₀ hsize).1 (Rat.floor_le _)
  have hlt : x < ((i : ℚ) + 1) * size := by
    have h := Rat.lt_floor_add_one (x / size)
    rw [Int.cast_add, Int.cast_one, ← hi] at h
    exact (div_lt_iff₀ hsize).1 h
  rw [abs_le]
  constructor <;> linarith

end Scalar

namespace Terminal

/-! ## Areas -/

/-- No column and no row of the area is beyond the greatest ones. -/
structure Area.Fits (a : Area) : Prop where
  width : a.x + a.width ≤ maxCell
  height : a.y + a.height ≤ maxCell

namespace Area.Fits

variable {a : Area}

/-- An area that fits ends where its width and its height say. -/
theorem contains_iff (h : a.Fits) {column row : Nat} :
    a.contains column row = true ↔
      (a.x ≤ column ∧ column < a.x + a.width) ∧ a.y ≤ row ∧ row < a.y + a.height := by
  have hright : a.right = a.x + a.width := Nat.min_eq_left h.width
  have hbottom : a.bottom = a.y + a.height := Nat.min_eq_left h.height
  simp [contains, hright, hbottom, and_assoc]

theorem contains_cell (h : a.Fits) {i j : Nat} (hi : i < a.width) (hj : j < a.height) :
    a.contains (a.x + i) (a.y + j) = true :=
  h.contains_iff.2 ⟨⟨Nat.le_add_right _ _, Nat.add_lt_add_left hi _⟩, Nat.le_add_right _ _,
    Nat.add_lt_add_left hj _⟩

end Area.Fits

/-! ## Both axes -/

namespace Viewport

theorem cellWidth_pos : (0 : ℚ) < cellWidth := by norm_num [cellWidth]

theorem cellHeight_pos : (0 : ℚ) < cellHeight := by norm_num [cellHeight]

variable {v : Viewport ℚ} {area : Area} {p : Point ℚ} {column row : Nat}

/-- The cells that stand for points. -/
theorem isSome_toScene (hfits : area.Fits) : (v.toScene area column row).isSome = true ↔
    (area.x ≤ column ∧ column < area.x + area.width) ∧ area.y ≤ row ∧ row < area.y + area.height := by
  rw [← hfits.contains_iff, toScene]
  split <;> simp [*]

/-- The points that an area shows. -/
theorem isSome_toCell : (v.toCell area p).isSome = true ↔
    (0 ≤ p.x ∧ p.x < 8 * area.width) ∧ 0 ≤ p.y - v.scroll ∧ p.y - v.scroll < 16 * area.height := by
  have hshown : (v.toCell area p).isSome = true ↔ ¬ (p.x < 0 ∨ p.y - v.scroll < 0 ∨
      cellWidth * (area.width : ℚ) ≤ p.x ∨ cellHeight * (area.height : ℚ) ≤ p.y - v.scroll) := by
    simp only [toCell, Scalar.floor_div_neg_iff cellWidth_pos, Scalar.floor_div_neg_iff cellHeight_pos,
      Scalar.le_floor_div_iff cellWidth_pos, Scalar.le_floor_div_iff cellHeight_pos]
    split
    · rename_i haside
      exact iff_of_false Bool.false_ne_true (not_not_intro haside)
    · rename_i hinside
      exact iff_of_true rfl hinside
  have hwidth : (cellWidth : ℚ) = 8 := rfl
  have hheight : (cellHeight : ℚ) = 16 := rfl
  rw [hshown, hwidth, hheight]
  simp only [not_or, not_lt, not_le]
  tauto

/-- A point that falls into one of the cells of the area along each axis is shown there. -/
theorem toCell_of_floor {i j : Nat} (hi : i < area.width) (hj : j < area.height)
    (hcolumn : (Scalar.floor (p.x / cellWidth) : ℚ) = Scalar.ofNat i)
    (hrow : (Scalar.floor ((p.y - v.scroll) / cellHeight) : ℚ) = Scalar.ofNat j) :
    v.toCell area p = some (area.x + i, area.y + j) := by
  have hcell : ¬ ((Scalar.ofNat i : ℚ) < 0 ∨ (Scalar.ofNat j : ℚ) < 0 ∨
      (Scalar.ofNat area.width : ℚ) ≤ Scalar.ofNat i ∨ (Scalar.ofNat area.height : ℚ) ≤ Scalar.ofNat j) := by
    simp only [Scalar.ofNat_rat, not_or, not_lt, not_le, Nat.cast_lt]
    exact ⟨Nat.cast_nonneg i, Nat.cast_nonneg j, hi, hj⟩
  simp only [toCell, hcolumn, hrow]
  rw [if_neg hcell, Scalar.toNat_ofNat, Scalar.toNat_ofNat]

/-- A cell shows the point that stands for it. -/
theorem toCell_of_toScene (hfits : area.Fits) (h : v.toScene area column row = some p) :
    v.toCell area p = some (column, row) := by
  obtain ⟨hinside, hp⟩ := Option.ite_none_right_eq_some.1 h
  obtain ⟨⟨hleft, hright⟩, habove, hbelow⟩ := hfits.contains_iff.1 hinside
  obtain ⟨i, rfl⟩ := Nat.exists_eq_add_of_le hleft
  obtain ⟨j, rfl⟩ := Nat.exists_eq_add_of_le habove
  rw [Nat.add_sub_cancel_left, Nat.add_sub_cancel_left] at hp
  rw [← Option.some.inj hp]
  refine toCell_of_floor (Nat.lt_of_add_lt_add_left hright) (Nat.lt_of_add_lt_add_left hbelow)
    (Scalar.floor_center cellWidth_pos i) ?_
  rw [add_assoc, add_sub_cancel_left]
  exact Scalar.floor_center cellHeight_pos j

/-- The cell that shows a point is in the area, and its center is at most half a cell away. -/
theorem toScene_of_toCell (hfits : area.Fits) (h : v.toCell area p = some (column, row)) :
    ∃ q, v.toScene area column row = some q ∧ |q.x - p.x| ≤ 4 ∧ |q.y - p.y| ≤ 8 := by
  simp only [toCell] at h
  split at h
  · cases h
  · rename_i hinside
    simp only [not_or] at hinside
    obtain ⟨hleft, habove, hright, hbelow⟩ := hinside
    obtain ⟨hcolumn, hx⟩ := Scalar.center_of_floor cellWidth_pos hleft hright
    obtain ⟨hrow, hy⟩ := Scalar.center_of_floor cellHeight_pos habove hbelow
    obtain ⟨rfl, rfl⟩ := Prod.mk.inj (Option.some.inj h)
    refine ⟨_, if_pos (hfits.contains_cell hcolumn hrow), ?_, ?_⟩
    · rw [Nat.add_sub_cancel_left, Scalar.ofNat_rat]
      exact hx.trans_eq (show (8 : ℚ) / 2 = 4 by norm_num)
    · dsimp only
      rw [Nat.add_sub_cancel_left, Scalar.ofNat_rat]
      rw [sub_sub_eq_add_sub, add_comm _ v.scroll, ← add_assoc] at hy
      exact hy.trans_eq (show (16 : ℚ) / 2 = 8 by norm_num)

/-- **Cells and points correspond.** In an area that fits the terminal, just its cells stand for points, and
each shows the point that it stands for. Just the points from the left edge to the right one and from the
scrolled top to the bottom are shown, each by a cell of the area, whose numbers have 16 bits and whose center
is at most half a cell away. -/
theorem cells_correspond (v : Viewport ℚ) (area : Area) (hfits : area.Fits) :
    (∀ column row,
      ((v.toScene area column row).isSome = true ↔
        (area.x ≤ column ∧ column < area.x + area.width) ∧ area.y ≤ row ∧ row < area.y + area.height) ∧
      ∀ p, v.toScene area column row = some p → v.toCell area p = some (column, row)) ∧
    ∀ p : Point ℚ,
      ((v.toCell area p).isSome = true ↔
        (0 ≤ p.x ∧ p.x < 8 * area.width) ∧ 0 ≤ p.y - v.scroll ∧ p.y - v.scroll < 16 * area.height) ∧
      ∀ column row, v.toCell area p = some (column, row) →
        ((area.x ≤ column ∧ column < area.x + area.width) ∧ area.y ≤ row ∧ row < area.y + area.height) ∧
          (column ≤ maxCell ∧ row ≤ maxCell) ∧
          ∃ q, v.toScene area column row = some q ∧ |q.x - p.x| ≤ 4 ∧ |q.y - p.y| ≤ 8 := by
  refine ⟨fun column row => ⟨isSome_toScene hfits, fun p => toCell_of_toScene hfits⟩,
    fun p => ⟨isSome_toCell, fun column row hcell => ?_⟩⟩
  obtain ⟨q, hq, hnear⟩ := toScene_of_toCell hfits hcell
  have hinside := (isSome_toScene hfits).1 (Option.isSome_of_eq_some hq)
  refine ⟨hinside, ⟨?_, ?_⟩, q, hq, hnear⟩
  · exact hinside.1.2.le.trans hfits.width
  · exact hinside.2.2.le.trans hfits.height

/-- A scrolled scene in an area off the corner: a cell and its center, a point scrolled out of sight, and a
point in the last cell. -/
theorem cells_correspond_scrolled :
    let v : Viewport ℚ := ⟨32⟩
    let area : Area := { x := 2, y := 1, width := 100, height := 40 }
    area.Fits ∧ v.toScene area 12 3 = some ⟨84, 72⟩ ∧ v.toCell area ⟨84, 72⟩ = some (12, 3) ∧
      (v.toScene area 1 3).isSome = false ∧ (v.toCell area ⟨10, 10⟩).isSome = false ∧
      v.toCell area ⟨799, 671⟩ = some (101, 40) ∧
      ∃ q, v.toScene area 101 40 = some q ∧ |q.x - 799| ≤ 4 ∧ |q.y - 671| ≤ 8 := by
  intro v area
  have hfits : area.Fits := ⟨by decide, by decide⟩
  have hcenter : v.toScene area 12 3 = some ⟨84, 72⟩ := by decide +kernel
  have hlast : v.toCell area ⟨799, 671⟩ = some (101, 40) := by decide +kernel
  obtain ⟨hcells, hpoints⟩ := cells_correspond v area hfits
  refine ⟨hfits, hcenter, (hcells 12 3).2 _ hcenter, ?_, ?_, hlast, ?_⟩
  · exact Bool.eq_false_iff.2 (mt (hcells 1 3).1.1 (by decide))
  · exact Bool.eq_false_iff.2 (mt (hpoints ⟨10, 10⟩).1.1 (by norm_num [v]))
  · exact ((hpoints ⟨799, 671⟩).2 101 40 hlast).2.2

end Viewport

end Terminal

end QueueBoard
