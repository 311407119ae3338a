import QueueBoard.Proofs.Scalar.Rational
import QueueBoard.Terminal.Stroke
import Mathlib.Analysis.Convex.Basic
import Mathlib.Data.List.Range
import Mathlib.Data.Rat.Floor
/-!
# Hatched rectangles

In exact arithmetic. A rectangle of positive size is its outline, and a filled one is hatched without gaps: with
lines across it that are evenly spread, at most a dot apart and no more than that takes (`Stroke.ofShape_rect`).
-/

namespace QueueBoard.Terminal.Stroke

/-- Horizontal lines between two edges, by their heights. -/
structure Hatched (top bottom : ℚ) (lines : List ℚ) : Prop where
  ascending : lines.Pairwise (· < ·)
  inside : ∀ y ∈ lines, top < y ∧ y < bottom
  /-- The edges count as lines. -/
  even : ∃ gap, 0 < gap ∧ gap ≤ dot ∧ (top :: (lines ++ [bottom])).IsChain fun y z => z - y = gap
  /-- One line less would leave gaps of more than a dot. -/
  fewest : dot * lines.length < bottom - top

/-- Whether all of a stroke is in a shape. -/
def StaysIn [Trig ℚ] (shape : Shape ℚ) : Stroke ℚ → Prop
  | .segment p q => ∀ t, 0 ≤ t → t ≤ 1 → shape.contains ⟨p.x + t * (q.x - p.x), p.y + t * (q.y - p.y)⟩ = true
  | .label .. => False

/-- The sides of a rectangle, one after the other. -/
def sides (left top right bottom : ℚ) : List (Stroke ℚ) :=
  [segment ⟨left, top⟩ ⟨right, top⟩, segment ⟨right, top⟩ ⟨right, bottom⟩,
    segment ⟨right, bottom⟩ ⟨left, bottom⟩, segment ⟨left, bottom⟩ ⟨left, top⟩]

/-! ## Parts of a length -/

variable {length : ℚ}

/-- A positive length is cut into the least number of parts of at most a dot. -/
theorem steps_spec (h : 0 < length) :
    0 < steps length ∧ length ≤ 4 * steps length ∧ 4 * ((steps length - 1 : ℕ) : ℚ) < length := by
  have hpositive : 0 < (length / 4).ceil := Rat.lt_ceil_iff.2 (by rw [Int.cast_zero]; positivity)
  obtain ⟨n, hn⟩ := Int.eq_ofNat_of_zero_le hpositive.le
  have hsteps : steps length = n := by
    have hone : ¬ (((length / 4).ceil : ℚ) < (1 : ℕ)) := not_lt.2 (by exact_mod_cast hpositive)
    have htoNat : Scalar.toNat ((length / 4).ceil : ℚ) = n := by
      rw [hn]
      exact congrArg Int.toNat (Rat.floor_intCast n)
    rw [← htoNat]
    exact if_neg fun hlt => hone (of_decide_eq_true hlt)
  have hleast : length / 4 ≤ n := by
    have := Rat.le_ceil (x := length / 4)
    rw [hn] at this
    exact_mod_cast this
  have hmost : ((n - 1 : ℕ) : ℚ) < length / 4 := by
    have hlt : ((n - 1 : ℕ) : ℤ) < (length / 4).ceil := by omega
    exact_mod_cast Rat.lt_ceil_iff.1 hlt
  rw [hsteps]
  refine ⟨by omega, by linarith, by linarith⟩

/-! ## Lines -/

/-- Evenly spread lines ascend, so they are between the edges. -/
theorem Hatched.of_even {top bottom gap : ℚ} {lines : List ℚ} (hgap : 0 < gap) (hdot : gap ≤ 4)
    (heven : (top :: (lines ++ [bottom])).IsChain fun y z => z - y = gap)
    (hfewest : 4 * (lines.length : ℚ) < bottom - top) : Hatched top bottom lines := by
  have hascending : (top :: (lines ++ [bottom])).Pairwise (· < ·) :=
    (heven.imp fun y z hyz => by linarith).pairwise
  obtain ⟨habove, hrest⟩ := List.pairwise_cons.1 hascending
  obtain ⟨hlines, -, hbelow⟩ := List.pairwise_append.1 hrest
  refine ⟨hlines, fun y hy => ⟨?_, ?_⟩, ⟨gap, hgap, hdot, heven⟩, hfewest⟩
  · exact habove y (List.mem_append_left _ hy)
  · exact hbelow y hy bottom (List.mem_singleton_self bottom)

theorem inner_between (n : ℕ) : 0 :: (inner (n + 1) ++ [n + 1]) = List.range (n + 2) := by
  rw [List.range_succ_eq_map, List.range_succ, List.map_append, List.map_singleton]
  rfl

/-- The heights at all parts of a rectangle's height are evenly spread. -/
theorem even_parts (top height : ℚ) (n : ℕ) :
    (top :: ((inner (n + 1)).map (fun i => top + height * part i (n + 1)) ++ [top + height])).IsChain
      fun y z => z - y = height / (n + 1 : ℕ) := by
  have hne : ((n + 1 : ℕ) : ℚ) ≠ 0 := Nat.cast_ne_zero.2 (Nat.succ_ne_zero n)
  have hpart : ∀ i, (part i (n + 1) : ℚ) = i / (n + 1 : ℕ) := fun _ => rfl
  have hall : top :: ((inner (n + 1)).map (fun i => top + height * part i (n + 1)) ++ [top + height]) =
      (List.range (n + 2)).map fun i => top + height * part i (n + 1) := by
    rw [← inner_between, List.map_cons, List.map_append, List.map_singleton, hpart 0, hpart (n + 1), div_self hne,
      Nat.cast_zero, zero_div, mul_zero, add_zero, mul_one]
  rw [hall, List.isChain_map, List.isChain_range_succ]
  intro i _
  rw [hpart, hpart, Nat.cast_succ]
  ring

theorem hatching_spec (origin : Point ℚ) (width : ℚ) {height : ℚ} (h : 0 < height) :
    ∃ lines, hatching origin width height =
        lines.map (fun y => segment ⟨origin.x, y⟩ ⟨origin.x + width, y⟩) ∧
      Hatched origin.y (origin.y + height) lines := by
  obtain ⟨hparts, hleast, hmost⟩ := steps_spec h
  obtain ⟨n, hn⟩ := Nat.exists_eq_succ_of_ne_zero hparts.ne'
  rw [hn] at hleast hmost
  have hpos : (0 : ℚ) < (n + 1 : ℕ) := Nat.cast_pos.2 (Nat.succ_pos n)
  refine ⟨(inner (n + 1)).map fun i => origin.y + height * part i (n + 1), ?_, ?_⟩
  · rw [hatching, hn, List.map_map]
    rfl
  · refine .of_even (div_pos h hpos) ((div_le_iff₀ hpos).2 hleast) (even_parts origin.y height n) ?_
    rw [List.length_map, inner, List.length_map, List.length_range, add_sub_cancel_left]
    exact hmost

/-! ## Rectangles -/

section

variable [Trig ℚ] {origin : Point ℚ} {width height : ℚ}

theorem contains_rect {p : Point ℚ} : (Shape.rect origin width height).contains p = true ↔
    (origin.x ≤ p.x ∧ p.x ≤ origin.x + width) ∧ origin.y ≤ p.y ∧ p.y ≤ origin.y + height := by
  simp only [Shape.contains, Bounds.contains, Bool.and_eq_true, decide_eq_true_eq, and_assoc]

/-- A rectangle is convex, so a segment between two of its points stays in it. -/
theorem staysIn_segment {p q : Point ℚ} (hp : (Shape.rect origin width height).contains p = true)
    (hq : (Shape.rect origin width height).contains q = true) : (segment p q).StaysIn (.rect origin width height) := by
  intro t hstart hend
  obtain ⟨hpx, hpy⟩ := contains_rect.1 hp
  obtain ⟨hqx, hqy⟩ := contains_rect.1 hq
  have hx := (convex_Icc origin.x (origin.x + width)).add_smul_sub_mem hpx hqx ⟨hstart, hend⟩
  have hy := (convex_Icc origin.y (origin.y + height)).add_smul_sub_mem hpy hqy ⟨hstart, hend⟩
  exact contains_rect.2 ⟨hx, hy⟩

theorem staysIn_sides (hwidth : 0 ≤ width) (hheight : 0 ≤ height) :
    ∀ stroke ∈ sides origin.x origin.y (origin.x + width) (origin.y + height),
      stroke.StaysIn (.rect origin width height) := by
  have hleft : origin.x ≤ origin.x + width := le_add_of_nonneg_right hwidth
  have htop : origin.y ≤ origin.y + height := le_add_of_nonneg_right hheight
  simp only [sides, List.forall_mem_cons]
  refine ⟨?_, ?_, ?_, ?_, List.forall_mem_nil _⟩ <;>
    exact staysIn_segment (contains_rect.2 (by simp [hleft, htop])) (contains_rect.2 (by simp [hleft, htop]))

theorem staysIn_line {y : ℚ} (hwidth : 0 ≤ width) (hy : origin.y < y ∧ y < origin.y + height) :
    (segment ⟨origin.x, y⟩ ⟨origin.x + width, y⟩).StaysIn (.rect origin width height) := by
  have hleft : origin.x ≤ origin.x + width := le_add_of_nonneg_right hwidth
  exact staysIn_segment (contains_rect.2 ⟨⟨le_rfl, hleft⟩, hy.1.le, hy.2.le⟩)
    (contains_rect.2 ⟨⟨hleft, le_rfl⟩, hy.1.le, hy.2.le⟩)

end

/-- **Hatching leaves no gap.** A rectangle without width or height is not drawn. Any other is drawn as its four
sides, one after the other and back to where they began. If it is filled, there are lines from side to side as
well, in ascending order and strictly inside; neighboring lines, the upper and the lower side among them, are all
equally far apart, at most a dot, with as few lines as that takes. All this stays in the rectangle. -/
theorem ofShape_rect [Trig ℚ] (origin : Point ℚ) (width height : ℚ) :
    let drawn := ofShape (.rect origin width height)
    (width ≤ 0 ∨ height ≤ 0 → ∀ filled, drawn filled = []) ∧
    (0 < width → 0 < height →
      drawn false = sides origin.x origin.y (origin.x + width) (origin.y + height) ∧
      (∃ lines, Hatched origin.y (origin.y + height) lines ∧
        drawn true = drawn false ++ lines.map fun y => segment ⟨origin.x, y⟩ ⟨origin.x + width, y⟩) ∧
      ∀ filled, ∀ stroke ∈ drawn filled, stroke.StaysIn (.rect origin width height)) := by
  intro drawn
  have hempty : width ≤ 0 ∨ height ≤ 0 → ∀ filled, drawn filled = [] := fun h filled => if_pos h
  refine ⟨hempty, fun hwidth hheight => ?_⟩
  have hsize : ¬ (width ≤ 0 ∨ height ≤ 0) := not_or.2 ⟨not_le.2 hwidth, not_le.2 hheight⟩
  have houtline : drawn false = sides origin.x origin.y (origin.x + width) (origin.y + height) := if_neg hsize
  have hfilled : drawn true = drawn false ++ hatching origin width height :=
    (if_neg hsize).trans (congrArg (· ++ _) ((if_neg hsize).trans (List.append_nil _)).symm)
  obtain ⟨lines, hlines, hhatched⟩ := hatching_spec origin width hheight
  have hsides : ∀ stroke ∈ drawn false, stroke.StaysIn (.rect origin width height) := by
    rw [houtline]
    exact staysIn_sides hwidth.le hheight.le
  refine ⟨houtline, ⟨lines, hhatched, hfilled.trans (congrArg _ hlines)⟩, fun filled => ?_⟩
  cases filled with
  | false => exact hsides
  | true =>
    rw [hfilled, hlines, List.forall_mem_append, List.forall_mem_map]
    exact ⟨hsides, fun y hy => staysIn_line hwidth.le (hhatched.inside y hy)⟩

/-- A rectangle of two and a half dots' height has two lines; without height, nothing is left of it. -/
theorem ofShape_rect_ten :
    letI : Trig ℚ := .rational
    let drawn (height : ℚ) := ofShape (.rect ⟨5, 20⟩ 40 height)
    drawn 0 true = [] ∧ (0 : ℚ) < 10 ∧
      (∃ lines, lines.length = 2 ∧ Hatched 20 (20 + 10) lines ∧
        drawn 10 true = drawn 10 false ++ lines.map fun y => segment ⟨5, y⟩ ⟨5 + 40, y⟩) ∧
      ∀ stroke ∈ drawn 10 true, stroke.StaysIn (.rect ⟨5, 20⟩ 40 10) := by
  let trig : Trig ℚ := .rational
  intro drawn
  obtain ⟨hempty, -⟩ := ofShape_rect (⟨5, 20⟩ : Point ℚ) 40 0
  obtain ⟨-, hdrawn⟩ := ofShape_rect (⟨5, 20⟩ : Point ℚ) 40 10
  obtain ⟨-, ⟨lines, hhatched, hfilled⟩, hinside⟩ := hdrawn (by norm_num) (by norm_num)
  have hcount : (drawn 10 true).length = (drawn 10 false).length + 2 := by decide +kernel
  refine ⟨hempty (.inr le_rfl) true, by norm_num, ⟨lines, ?_, hhatched, hfilled⟩, hinside true⟩
  rw [show drawn 10 true = _ from hfilled, List.length_append, List.length_map] at hcount
  exact Nat.add_left_cancel hcount

end QueueBoard.Terminal.Stroke
