import QueueBoard.Chart.Panel
import QueueBoard.Proofs.Scalar.Extended
import Mathlib.Tactic.NormNum
import Mathlib.Tactic.Ring
/-!
# The grid of panels

In exact arithmetic, over a width that may be negative, infinite or no number: panels fill their rows from the
left, are 30 apart, and keep within a width that has room for one (`Panel.gridded`). A grid hands them out in
this order, and its bottom is the lowest edge handed out (`PanelGrid.handOut_spec`).
-/

namespace QueueBoard

namespace Panel

open Extended (finite largest)

variable {α : Type} [Scalar α]

/-- One of two panels begins at least 30 after the other has ended, across or down. -/
def Apart (p q : Panel α) : Prop :=
  p.x2 + 30 ≤ q.x1 ∨ q.x2 + 30 ≤ p.x1 ∨ p.y2 + 30 ≤ q.y1 ∨ q.y2 + 30 ≤ p.y1

theorem one_le_perRow (available : α) : 1 ≤ perRow available := by
  unfold perRow
  dsimp only
  split
  · exact Nat.le_refl 1
  · exact Nat.le_max_right _ _

/-! ## Cells -/

/-- A panel of 400 by 300 in a row and a column of the grid. -/
structure InCell (p : Panel Extended) (left : ℚ) (row column : Nat) : Prop where
  x1 : p.x1 = finite (left + 30 + 430 * column)
  y1 : p.y1 = finite (30 + 330 * row)
  x2 : p.x2 = finite (left + 430 + 430 * column)
  y2 : p.y2 = finite (330 + 330 * row)

/-- Panels fill rows of as many as fit. -/
theorem place_inCell (index : Nat) (available : Extended) (left : ℚ) :
    (place index available (finite left)).InCell left (index / perRow available) (index % perRow available) := by
  constructor <;>
    simp only [place, gap, gridWidth, gridHeight, Extended.ofNat_extended, Extended.numeral_extended,
      Extended.one_extended, Extended.finite_add, Extended.finite_mul, Extended.finite.injEq] <;>
    ring

variable {p q : Panel Extended} {left : ℚ} {row column row' column' : Nat}

/-- What is further along in whole steps of 430 or 330 begins 30 after. -/
theorem InCell.apart (hp : p.InCell left row column) (hq : q.InCell left row' column')
    (h : row ≠ row' ∨ column ≠ column') : p.Apart q := by
  have hstep : ∀ {m n : Nat}, m < n → (m : ℚ) + 1 ≤ n := fun hlt => by exact_mod_cast hlt
  simp only [Apart, hp.x1, hp.y1, hp.x2, hp.y2, hq.x1, hq.y1, hq.x2, hq.y2, Extended.numeral_extended,
    Extended.finite_add, Extended.finite_le]
  rcases h with hrow | hcolumn
  · rcases Nat.lt_or_gt_of_ne hrow with hlt | hlt
    · exact Or.inr (Or.inr (Or.inl (by linarith [hstep hlt])))
    · exact Or.inr (Or.inr (Or.inr (by linarith [hstep hlt])))
  · rcases Nat.lt_or_gt_of_ne hcolumn with hlt | hlt
    · exact Or.inl (by linarith [hstep hlt])
    · exact Or.inr (Or.inl (by linarith [hstep hlt]))

/-- Panels with a gap between them share nothing. -/
theorem InCell.not_overlaps (hp : p.InCell left row column) (hq : q.InCell left row' column') (h : p.Apart q) :
    p.overlaps q = false := by
  simp only [Apart, hp.x1, hp.y1, hp.x2, hp.y2, hq.x1, hq.y1, hq.x2, hq.y2, Extended.numeral_extended,
    Extended.finite_add, Extended.finite_le] at h
  rw [← Bool.not_eq_true]
  simp only [overlaps, hp.x1, hp.y1, hp.x2, hp.y2, hq.x1, hq.y1, hq.x2, hq.y2, Extended.finite_lt,
    Bool.and_eq_true, decide_eq_true_eq]
  rintro ⟨⟨⟨hleft, hright⟩, hupper⟩, hlower⟩
  rcases h with h | h | h | h <;> linarith

/-! ## Rows -/

theorem fit_finite (width : ℚ) :
    Scalar.floor (finite width / (gridWidth + gap)) = finite (width / 430).floor := by
  have hpitch : (gridWidth + gap : Extended) = finite 430 := by
    simp only [gridWidth, gap, Extended.numeral_extended, Extended.finite_add, Extended.finite.injEq]
    norm_num
  rw [hpitch, Extended.finite_div _ (by norm_num), Extended.floor_finite]

/-- A row has as many panels as fit, but at least one, and no more than can be counted. -/
theorem perRow_finite (width : ℚ) :
    (perRow (finite width) = 1 ∨ 430 * (perRow (finite width) : ℚ) ≤ width) ∧
      (width < 430 * ((perRow (finite width) : ℚ) + 1) ∨ perRow (finite width) = largest) := by
  obtain ⟨n, hn⟩ : ∃ n, (width / 430).floor = n := ⟨_, rfl⟩
  have hbelow : (n : ℚ) ≤ width / 430 := Rat.le_floor_iff.1 hn.ge
  have habove : width / 430 < n + 1 := by
    by_contra hle
    have := Rat.le_floor_iff.2 (show ((n + 1 : Int) : ℚ) ≤ width / 430 by push_cast; linarith)
    omega
  have hperRow : perRow (finite width) = if n < 1 then 1 else max (min n.toNat largest) 1 := by
    have hless : finite (n : ℚ) < 1 ↔ n < 1 := by
      rw [Extended.one_extended, Extended.finite_lt]
      exact_mod_cast Iff.rfl
    have hfinite : Scalar.isFinite (finite (n : ℚ)) = true := rfl
    have hcount : Scalar.toNat (finite (n : ℚ)) = min n.toNat largest :=
      congrArg (fun m : Int => min m.toNat largest) (Rat.floor_intCast n)
    simp only [perRow, fit_finite, hn, hfinite, hcount, hless, Bool.not_true, Bool.false_or, decide_eq_true_eq]
  have hlargest : 1 ≤ largest := by decide
  rw [hperRow]
  split
  · refine ⟨Or.inl rfl, Or.inl ?_⟩
    have : (n : ℚ) ≤ 0 := by exact_mod_cast (show n ≤ 0 by omega)
    push_cast
    linarith
  · rename_i hn
    have hnat : ((n.toNat : Nat) : ℚ) = n := by exact_mod_cast Int.toNat_of_nonneg (by omega)
    rcases Nat.le_total n.toNat largest with h | h
    · rw [Nat.min_eq_left h, Nat.max_eq_left (by omega), hnat]
      exact ⟨Or.inr (by linarith), Or.inl (by linarith)⟩
    · have hlower : (largest : ℚ) ≤ n := hnat ▸ Nat.cast_le.2 h
      rw [Nat.min_eq_right h, Nat.max_eq_left hlargest]
      exact ⟨Or.inr (by linarith), Or.inr rfl⟩

theorem perRow_infinite (negative : Bool) : perRow (.infinite negative : Extended) = 1 := rfl

theorem perRow_nan : perRow (.nan : Extended) = 1 := rfl

/-- What is wide enough for one panel is wide enough for a row. -/
theorem perRow_le {available : Extended} (h : finite 430 ≤ available) :
    finite (430 * (perRow available : ℚ)) ≤ available := by
  match available with
  | .finite width =>
    rw [Extended.finite_le] at h ⊢
    rcases (perRow_finite width).1 with hone | hfit
    · rw [hone, Nat.cast_one]
      linarith
    · exact hfit
  | .infinite negative =>
    rw [Extended.finite_le_infinite] at h ⊢
    exact h
  | .nan => exact absurd h (Extended.not_finite_le_nan _)

/-- How the panels over a width stand. -/
structure Gridded (available : Extended) (left : ℚ) : Prop where
  rows : ∀ i, (place i available (finite left)).id = i ∧
    (place i available (finite left)).InCell left (i / perRow available) (i % perRow available)
  apart : ∀ i j, i ≠ j → (place i available (finite left)).Apart (place j available (finite left)) ∧
    (place i available (finite left)).overlaps (place j available (finite left)) = false
  beginning : ∀ i, finite (left + 30) ≤ (place i available (finite left)).x1
  ending : finite 430 ≤ available → ∀ i, (place i available (finite left)).x2 ≤ finite left + available
  /-- There are as many side by side as fit, but at least one, and only one if the width is no number. -/
  columns : 1 ≤ perRow available ∧ (Scalar.isFinite available = false → perRow available = 1) ∧
    ∀ width, available = finite width → (perRow available = 1 ∨ 430 * (perRow available : ℚ) ≤ width) ∧
      (width < 430 * ((perRow available : ℚ) + 1) ∨ perRow available = largest)

/-- **Panels fill rows and never collide**, whatever the width. -/
theorem gridded (available : Extended) (left : ℚ) : Gridded available left := by
  have hcell := fun i => place_inCell i available left
  have hcolumns := one_le_perRow available
  refine ⟨fun i => ⟨rfl, hcell i⟩, fun i j hne => ?_, fun i => ?_, fun hroom i => ?_, hcolumns, fun hno => ?_, ?_⟩
  · have hplaces : i / perRow available ≠ j / perRow available ∨ i % perRow available ≠ j % perRow available := by
      by_contra hsame
      obtain ⟨hrow, hcolumn⟩ := not_or.1 hsame
      rw [not_not] at hrow hcolumn
      exact hne (by rw [← Nat.div_add_mod i (perRow available), hrow, hcolumn, Nat.div_add_mod])
    have happart := (hcell i).apart (hcell j) hplaces
    exact ⟨happart, (hcell i).not_overlaps (hcell j) happart⟩
  · have hcolumn : (0 : ℚ) ≤ (i % perRow available : Nat) := Nat.cast_nonneg _
    rw [(hcell i).x1, Extended.finite_le]
    linarith
  · have hlast : ((i % perRow available : Nat) : ℚ) + 1 ≤ perRow available := by
      exact_mod_cast Nat.mod_lt i hcolumns
    have hrow := perRow_le hroom
    rw [(hcell i).x2]
    match available with
    | .finite width =>
      rw [Extended.finite_le] at hrow
      rw [Extended.finite_add, Extended.finite_le]
      linarith
    | .infinite negative =>
      rw [Extended.finite_le_infinite] at hrow
      rw [Extended.finite_add_infinite, Extended.finite_le_infinite]
      exact hrow
    | .nan => exact absurd hroom (Extended.not_finite_le_nan _)
  · match available with
    | .finite width => cases hno
    | .infinite negative => exact perRow_infinite negative
    | .nan => exact perRow_nan
  · rintro width rfl
    exact perRow_finite width

theorem place_y2_le {i j : Nat} (h : i ≤ j) (available : Extended) (left : ℚ) :
    (place i available (finite left)).y2 ≤ (place j available (finite left)).y2 := by
  have hrow : ((i / perRow available : Nat) : ℚ) ≤ (j / perRow available : Nat) := by
    exact_mod_cast Nat.div_le_div_right h
  rw [(place_inCell i available left).y2, (place_inCell j available left).y2, Extended.finite_le]
  linarith

end Panel

namespace PanelGrid

open Extended (finite)

variable {α : Type} [Scalar α]

/-- So many panels, one after another, and the grid after them. -/
def handOut : Nat → PanelGrid α → List (Panel α) × PanelGrid α
  | 0, g => ([], g)
  | n + 1, g =>
    let (panel, g) := g.allocate
    let (rest, g) := handOut n g
    (panel :: rest, g)

theorem handOut_eq (n : Nat) (g : PanelGrid α) : handOut n g =
    ((List.range n).map fun i => Panel.place (g.allocated + i) g.available g.left,
      { g with allocated := g.allocated + n }) := by
  induction n generalizing g with
  | zero => rfl
  | succ n ih =>
    simp only [handOut, allocate, ih, List.range_succ_eq_map, List.map_cons, List.map_map, Nat.add_zero,
      Function.comp_def, Nat.add_assoc, Nat.add_comm 1, Nat.succ_eq_add_one]

/-- **A grid hands out its panels in order**, and its bottom is the lowest edge handed out so far. -/
theorem handOut_spec (available : Extended) (left : ℚ) (n : Nat) :
    let (panels, g) := handOut n { available, left := finite left }
    panels = (List.range n).map (fun i => Panel.place i available (finite left)) ∧
      (n = 0 → g.bottom = 0) ∧ (n ≠ 0 → ∃ p ∈ panels, p.y2 = g.bottom) ∧ ∀ p ∈ panels, p.y2 ≤ g.bottom := by
  have heq : handOut n { available, left := finite left } =
      ((List.range n).map fun i => Panel.place i available (finite left),
        { available, left := finite left, allocated := n }) := by
    simpa using handOut_eq n { available, left := finite left }
  rw [heq]
  refine ⟨rfl, fun hnone => ?_, fun hsome => ?_, fun p hp => ?_⟩
  · subst hnone
    rfl
  · obtain ⟨last, rfl⟩ := Nat.exists_eq_succ_of_ne_zero hsome
    exact ⟨_, List.mem_map_of_mem (List.mem_range.2 last.lt_succ_self), rfl⟩
  · obtain ⟨i, hi, rfl⟩ := List.mem_map.1 hp
    obtain ⟨last, rfl⟩ := Nat.exists_eq_succ_of_ne_zero (Nat.ne_zero_of_lt (List.mem_range.1 hi))
    exact Panel.place_y2_le (Nat.le_of_lt_succ (List.mem_range.1 hi)) available left

end PanelGrid

end QueueBoard
