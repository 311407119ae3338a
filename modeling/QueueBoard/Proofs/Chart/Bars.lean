import QueueBoard.Proofs.Chart.Extent
import QueueBoard.Proofs.Chart.Pie
import Mathlib.Order.Bounds.Basic
/-!
# How bars stand in their panel

In exact arithmetic, of values that may be negative, infinite or no numbers, and of any number of them: bars
are as wide as their values are great, the widest fills the room that there is, and they spread evenly down to
the panel's lower margin (`Bar.placements_lined`).
-/

namespace QueueBoard

open Extended (finite)

/-- A panel with finite edges. -/
def Panel.extended (p : Panel ℚ) : Panel Extended :=
  { x1 := finite p.x1, y1 := finite p.y1, x2 := finite p.x2, y2 := finite p.y2, id := p.id
    margin := finite p.margin }

namespace Bar

/-- Where a bar ends on the right. -/
def Placement.right {α : Type} [Scalar α] (b : Placement α) : α := b.x + b.width

/-- Where a bar ends below. -/
def Placement.lower {α : Type} [Scalar α] (b : Placement α) : α := b.y + b.height

/-- The width of a panel that labels and margins leave to the bars; negative if they leave none. -/
def room (panel : Panel ℚ) (labelWidth : ℚ) : ℚ := panel.width - 2 * panel.margin - labelWidth

/-- How bars for some data stand in a panel, right of labels. -/
structure Lined (data : List (Datum Extended)) (panel : Panel ℚ) (labelWidth : ℚ)
    (bars : List (Placement Extended)) : Prop where
  length : bars.length = data.length
  magnitude : ∀ d ∈ data, d.magnitude = finite d.size
  left : ∀ b ∈ bars, b.x = finite (panel.x1 + panel.margin + labelWidth)
  height : ∀ b ∈ bars, b.height = finite 30
  least : ∀ b ∈ bars, finite 3 ≤ b.width
  ordered : ∀ {i j : Nat} {d e : Datum Extended} {b c : Placement Extended}, data[i]? = some d →
    data[j]? = some e → bars[i]? = some b → bars[j]? = some c → d.magnitude ≤ e.magnitude → b.width ≤ c.width
  /-- Bars reach no farther than the right margin, and just there if none is wider. -/
  fills : (∃ d ∈ data, 0 < d.magnitude) → 3 ≤ room panel labelWidth →
    (∃ b ∈ bars, b.right = finite (panel.x2 - panel.margin)) ∧
      ∀ b ∈ bars, b.right ≤ finite (panel.x2 - panel.margin) ∧
        (b.right = finite (panel.x2 - panel.margin) ↔ ∀ c ∈ bars, c.width ≤ b.width)
  stubs : (∀ d ∈ data, ¬ 0 < d.magnitude) → ∀ b ∈ bars, b.width = finite 3
  even : ∃ pitch : ℚ, ∀ (i : Nat) (b c : Placement Extended), bars[i]? = some b → bars[i + 1]? = some c →
    c.y = b.y + finite pitch
  first : ∀ b, bars.head? = some b → b.y = finite (panel.y1 + panel.margin + 30)
  last : 2 ≤ data.length → ∀ b, bars.getLast? = some b → b.lower = finite (panel.y2 - panel.margin)

/-! ## Scaling -/

/-- How wide the bar of a value is if the greatest one is to fill the room. -/
def barWidth (top free size : ℚ) : ℚ := max (if 0 < top then size / top * max free 0 else 0) 3

section

variable {top free x y : ℚ}

theorem barWidth_mono (h : x ≤ y) : barWidth top free x ≤ barWidth top free y := by
  refine max_le_max_right 3 ?_
  split
  · rename_i htop
    exact mul_le_mul_of_nonneg_right (div_le_div_of_nonneg_right h htop.le) (le_max_right free 0)
  · exact le_refl 0

theorem barWidth_top (htop : 0 < top) (hfree : 3 ≤ free) : barWidth top free top = free := by
  have hnonneg : 0 ≤ free := by linarith
  rw [barWidth, if_pos htop, div_self htop.ne', one_mul, max_eq_left hnonneg, max_eq_left hfree]

theorem barWidth_of_not_pos (htop : ¬ 0 < top) : barWidth top free x = 3 := by
  rw [barWidth, if_neg htop]
  exact max_eq_right (by norm_num)

end

/-- The greatest of a number and the magnitudes of some data is one of them, and none of them is greater. -/
theorem foldl_magnitude (data : List (Datum Extended)) (a : ℚ) :
    ∃ top, (data.map Datum.magnitude).foldl Scalar.max (finite a) = finite top ∧
      IsGreatest {x | x = a ∨ ∃ d ∈ data, d.size = x} top := by
  induction data generalizing a with
  | nil =>
    refine ⟨a, rfl, Or.inl rfl, ?_⟩
    rintro x (rfl | ⟨d, hd, -⟩)
    · exact le_refl x
    · cases hd
  | cons d rest ih =>
    obtain ⟨top, htop, hmem, hbound⟩ := ih (max a d.size)
    -- the fold goes on from the greater of the start and the first magnitude
    have hcut : max a d.size ≤ top := hbound (Or.inl rfl)
    refine ⟨top, by rw [List.map_cons, List.foldl_cons, d.magnitude_extended, Extended.max_finite, htop], ?_, ?_⟩
    · rcases hmem with rfl | ⟨e, he, rfl⟩
      · rcases max_choice a d.size with h | h
        · exact Or.inl h
        · exact Or.inr ⟨d, .head _, h.symm⟩
      · exact Or.inr ⟨e, .tail _ he, rfl⟩
    · rintro x (rfl | ⟨e, he, rfl⟩)
      · exact (le_max_left _ _).trans hcut
      · rcases List.mem_cons.1 he with rfl | he
        · exact (le_max_right _ _).trans hcut
        · exact hbound (Or.inr ⟨e, he, rfl⟩)

/-! ## Places -/

variable {data : List (Datum Extended)} {panel : Panel ℚ} {labelWidth : ℚ}

theorem gap_extended (panel : Panel ℚ) (n : Nat) : gap panel.extended n = finite (gap panel n) := by
  by_cases hn : n < 2
  · simp only [gap, hn, if_true, Extended.zero_extended]
  · have hpos : ((n - 1 : Nat) : ℚ) ≠ 0 := by
      have : n - 1 ≠ 0 := by omega
      exact_mod_cast this
    simp only [gap, hn, if_false, Panel.height, Panel.extended, titleRoom, barHeight, Extended.numeral_extended,
      Extended.ofNat_extended, Extended.finite_sub, Extended.finite_mul, Extended.finite_div _ hpos,
      Scalar.ofNat_rat]

/-- Where the bar of an index stands, given the greatest magnitude. -/
structure Stands (panel : Panel ℚ) (labelWidth top : ℚ) (n i : Nat) (d : Datum Extended)
    (b : Placement Extended) : Prop where
  x : b.x = finite (panel.x1 + panel.margin + labelWidth)
  y : b.y = finite (panel.y1 + panel.margin + 30 + (gap panel n + 30) * i)
  width : b.width = finite (barWidth top (room panel labelWidth) d.size)
  height : b.height = finite 30

theorem placements_stand {top : ℚ} (htop : greatest data = finite top) {i : Nat} {b : Placement Extended}
    (hb : (placements data panel.extended (finite labelWidth))[i]? = some b) :
    ∃ d, data[i]? = some d ∧ Stands panel labelWidth top data.length i d b := by
  obtain ⟨-, hx, hheight, hy⟩ := placements_spec hb
  have hspan : Scalar.max (panel.extended.width - 2 * panel.extended.margin - finite labelWidth) 0 =
      finite (max (room panel labelWidth) 0) := by
    simp only [Panel.width, Panel.extended, room, Extended.numeral_extended, Extended.zero_extended,
      Extended.finite_sub, Extended.finite_mul, Extended.max_finite]
  have hwidth : ∃ d, data[i]? = some d ∧ b.width = Scalar.max
      (if 0 < finite top then d.magnitude / finite top * finite (max (room panel labelWidth) 0) else 0) 3 := by
    simp only [placements, List.getElem?_mapIdx, Option.map_eq_some_iff, htop, hspan] at hb
    obtain ⟨d, hd, rfl⟩ := hb
    exact ⟨d, hd, rfl⟩
  obtain ⟨d, hd, hwidth⟩ := hwidth
  refine ⟨d, hd, hx, ?_, ?_, hheight⟩
  · rw [hy, gap_extended]
    simp only [Panel.extended, titleRoom, barHeight, Extended.numeral_extended, Extended.ofNat_extended,
      Extended.finite_add, Extended.finite_mul, Extended.finite.injEq]
    ring
  · by_cases hpos : 0 < top
    · have hlt : (0 : Extended) < finite top := Extended.finite_lt.2 hpos
      rw [hwidth, if_pos hlt, barWidth, if_pos hpos, d.magnitude_extended, Extended.finite_div _ hpos.ne',
        Extended.finite_mul, Extended.numeral_extended 3, Extended.max_finite]
    · have hnot : ¬ (0 : Extended) < finite top := fun h => hpos (Extended.finite_lt.1 h)
      rw [hwidth, if_neg hnot, barWidth, if_neg hpos, Extended.zero_extended, Extended.numeral_extended 3,
        Extended.max_finite]

/-- In room for the narrowest bar at least, none ends past the right margin, and those that end there are as
wide as the room. -/
theorem Stands.reach {top : ℚ} {n i : Nat} {d : Datum Extended} {b : Placement Extended}
    (h : Stands panel labelWidth top n i d b) (htop : 0 < top) (hfree : 3 ≤ room panel labelWidth)
    (hsize : d.size ≤ top) :
    b.width ≤ finite (room panel labelWidth) ∧ b.right ≤ finite (panel.x2 - panel.margin) ∧
      (b.right = finite (panel.x2 - panel.margin) ↔ b.width = finite (room panel labelWidth)) := by
  have hle : barWidth top (room panel labelWidth) d.size ≤ room panel labelWidth :=
    (barWidth_mono hsize).trans_eq (barWidth_top htop hfree)
  have hend : panel.x1 + panel.margin + labelWidth + room panel labelWidth = panel.x2 - panel.margin := by
    rw [room, Panel.width]
    ring
  rw [Placement.right, h.x, h.width, Extended.finite_add, Extended.finite_le, Extended.finite_le,
    Extended.finite.injEq, Extended.finite.injEq]
  refine ⟨hle, by linarith, fun heq => by linarith, fun heq => by linarith⟩

section

variable {top : ℚ} (htop : greatest data = finite top)
include htop

theorem stands_of_mem {b : Placement Extended} (hb : b ∈ placements data panel.extended (finite labelWidth)) :
    ∃ i d, data[i]? = some d ∧ Stands panel labelWidth top data.length i d b := by
  obtain ⟨i, hi⟩ := List.mem_iff_getElem?.1 hb
  exact ⟨i, placements_stand htop hi⟩

theorem exists_stands {d : Datum Extended} (hd : d ∈ data) :
    ∃ b ∈ placements data panel.extended (finite labelWidth),
      ∃ i, Stands panel labelWidth top data.length i d b := by
  obtain ⟨i, hi, rfl⟩ := List.mem_iff_getElem.1 hd
  have hlt : i < (placements data panel.extended (finite labelWidth)).length := by
    rwa [length_placements]
  obtain ⟨d, hd, hb⟩ := placements_stand htop (List.getElem?_eq_getElem hlt)
  cases (List.getElem?_eq_getElem hi).symm.trans hd
  exact ⟨_, List.getElem_mem hlt, i, hb⟩

theorem fills_room (hpos : 0 < top) (hgreatest : IsGreatest {x | ∃ d ∈ data, d.size = x} top)
    (hfree : 3 ≤ room panel labelWidth) :
    (∃ b ∈ placements data panel.extended (finite labelWidth), b.right = finite (panel.x2 - panel.margin)) ∧
      ∀ b ∈ placements data panel.extended (finite labelWidth), b.right ≤ finite (panel.x2 - panel.margin) ∧
        (b.right = finite (panel.x2 - panel.margin) ↔
          ∀ c ∈ placements data panel.extended (finite labelWidth), c.width ≤ b.width) := by
  have hreach : ∀ b ∈ placements data panel.extended (finite labelWidth),
      b.width ≤ finite (room panel labelWidth) ∧ b.right ≤ finite (panel.x2 - panel.margin) ∧
        (b.right = finite (panel.x2 - panel.margin) ↔ b.width = finite (room panel labelWidth)) := by
    intro b hb
    obtain ⟨i, d, hd, hb⟩ := stands_of_mem htop hb
    exact hb.reach hpos hfree (hgreatest.2 ⟨d, List.mem_of_getElem? hd, rfl⟩)
  -- the bar of a greatest magnitude is as wide as the room
  obtain ⟨e, he, hetop⟩ := hgreatest.1
  obtain ⟨m, hm, k, hstands⟩ := exists_stands htop he
  have hwidest : m.width = finite (room panel labelWidth) := by
    rw [hstands.width, hetop, barWidth_top hpos hfree]
  refine ⟨⟨m, hm, (hreach m hm).2.2.2 hwidest⟩, fun b hb => ⟨(hreach b hb).2.1, (hreach b hb).2.2.trans ?_⟩⟩
  constructor
  · intro heq c hc
    rw [heq]
    exact (hreach c hc).1
  · intro hwider
    have hge := hwider m hm
    have hle := (hreach b hb).1
    obtain ⟨i, d, -, hb⟩ := stands_of_mem htop hb
    rw [hwidest, hb.width, Extended.finite_le] at hge
    rw [hb.width, Extended.finite_le] at hle
    rw [hb.width, le_antisymm hle hge]

end

/-- **Bars fit their panel, and are ordered as their values are.** -/
theorem placements_lined (data : List (Datum Extended)) (panel : Panel ℚ) (labelWidth : ℚ) :
    Lined data panel labelWidth (placements data panel.extended (finite labelWidth)) := by
  obtain ⟨top, htop, hmem, hbound⟩ := foldl_magnitude data 0
  have hgreatest : 0 < top → IsGreatest {x | ∃ d ∈ data, d.size = x} top := fun hpos =>
    ⟨hmem.resolve_left hpos.ne', fun x hx => hbound (Or.inr hx)⟩
  constructor
  case length => exact length_placements
  case magnitude => exact fun d _ => d.magnitude_extended
  case left =>
    intro b hb
    obtain ⟨i, d, -, hb⟩ := stands_of_mem htop hb
    exact hb.x
  case height =>
    intro b hb
    obtain ⟨i, d, -, hb⟩ := stands_of_mem htop hb
    exact hb.height
  case least =>
    intro b hb
    obtain ⟨i, d, -, hb⟩ := stands_of_mem htop hb
    rw [hb.width]
    exact Extended.finite_le.2 (le_max_right _ _)
  case ordered =>
    intro i j d e b c hd he hb hc hle
    obtain ⟨d', hd', hb⟩ := placements_stand htop hb
    obtain ⟨e', he', hc⟩ := placements_stand htop hc
    cases hd.symm.trans hd'
    cases he.symm.trans he'
    rw [d.magnitude_extended, e.magnitude_extended, Extended.finite_le] at hle
    rw [hb.width, hc.width, Extended.finite_le]
    exact barWidth_mono hle
  case fills =>
    rintro ⟨d, hd, hpos⟩ hfree
    rw [d.magnitude_extended] at hpos
    have htoppos : 0 < top := (Extended.finite_lt.1 hpos).trans_le (hbound (Or.inr ⟨d, hd, rfl⟩))
    exact fills_room htop htoppos (hgreatest htoppos) hfree
  case stubs =>
    intro hnone b hb
    obtain ⟨i, d, -, hb⟩ := stands_of_mem htop hb
    rw [hb.width, barWidth_of_not_pos]
    intro htoppos
    obtain ⟨e, he, rfl⟩ := (hgreatest htoppos).1
    exact hnone e he (e.magnitude_extended ▸ Extended.finite_lt.2 htoppos)
  case even =>
    refine ⟨gap panel data.length + 30, fun i b c hb hc => ?_⟩
    obtain ⟨d, -, hb⟩ := placements_stand htop hb
    obtain ⟨e, -, hc⟩ := placements_stand htop hc
    rw [hb.y, hc.y, Extended.finite_add, Nat.cast_succ]
    congr 1
    ring
  case first =>
    intro b hb
    rw [List.head?_eq_getElem?] at hb
    obtain ⟨d, -, hb⟩ := placements_stand htop hb
    rw [hb.y, Nat.cast_zero, mul_zero, add_zero]
  case last =>
    intro htwo b hb
    rw [List.getLast?_eq_getElem?, length_placements] at hb
    obtain ⟨d, -, hb⟩ := placements_stand htop hb
    rw [Placement.lower, hb.y, hb.height, pitch_mul_last panel htwo, Extended.finite_add, Panel.height]
    congr 1
    ring

/-- Five bars in a panel for three overlap, and still end where they should. -/
example : (placements [⟨"Cap", finite 60⟩, ⟨"MaxCap", finite 100⟩, ⟨"UsedCap", finite (-1)⟩, ⟨"AbsCap", .nan⟩,
      ⟨"Share", .infinite false⟩]
      (Panel.extended ⟨30, 30, 430, 170, 0, 10⟩) (finite 60)).map (fun b => (b.y, b.lower, b.right)) =
    [(finite 70, finite 100, finite 292), (finite 85, finite 115, finite 420), (finite 100, finite 130, finite 103),
      (finite 115, finite 145, finite 103), (finite 130, finite 160, finite 103)] := by
  decide +kernel

end Bar

end QueueBoard
