import QueueBoard.Proofs.Chart.Elements
import QueueBoard.Proofs.Scene.Easing
import Mathlib.Algebra.Order.BigOperators.Group.List
import Mathlib.Tactic.Positivity
import Mathlib.Tactic.Ring
/-!
# The slices of a ring

In exact arithmetic, of values that may be negative, infinite or no numbers. Slices follow one another around
the ring, each as wide as its share, and so do their sectors at every moment of the entrance, up to the eased
part of the turn (`Donut.pie_cuts`).
-/

namespace QueueBoard

open Extended (finite)

/-! ## Shares -/

/-- The rational that a value counts; none if it is negative or not finite. -/
def Datum.size (d : Datum Extended) : ℚ :=
  match d.value with
  | .finite x => max x 0
  | .infinite _ | .nan => 0

theorem Datum.magnitude_extended (d : Datum Extended) : d.magnitude = finite d.size := by
  obtain ⟨label, value⟩ := d
  cases value with
  | finite x => exact Extended.max_finite x 0
  | infinite negative => rfl
  | nan => rfl

namespace Donut

/-- The part of a datum before it is divided by that of all. -/
def share (d : Datum Extended) : ℚ := max d.size (1 / 10 ^ 6)

theorem share_pos (d : Datum Extended) : 0 < share d := lt_max_of_lt_right (by norm_num)

/-- Shares are ordered as the values are, but for those up to the threshold, which are all alike. -/
theorem share_lt_iff {d e : Datum Extended} : share d < share e ↔ d.size < e.size ∧ 1 / 10 ^ 6 < e.size := by
  rw [share, share, lt_max_iff, max_lt_iff, max_lt_iff]
  simp only [lt_irrefl, and_false, or_false]

theorem sum_share_pos {data : List (Datum Extended)} (h : data ≠ []) : 0 < (data.map share).sum :=
  List.sum_pos _ (fun x hx => by obtain ⟨d, -, rfl⟩ := List.mem_map.1 hx; exact share_pos d) (by simpa using h)

theorem threshold_extended : (threshold : Extended) = finite (1 / 10 ^ 6) := by
  have hexact : (threshold : Extended) = finite ((1 : Nat) / 10 ^ 6) := rfl
  rw [hexact, Nat.cast_one]

theorem weight_extended (d : Datum Extended) : weight d = finite (share d) := by
  rw [weight, d.magnitude_extended, threshold_extended, Extended.max_finite, share]

theorem sum_weight (data : List (Datum Extended)) : Scalar.sum (data.map weight) = finite (data.map share).sum := by
  rw [← Extended.sum_finite, List.map_map]
  exact congrArg Scalar.sum (List.map_congr_left fun d _ => weight_extended d)

/-! ## Arcs in a row -/

/-- An arc that has come a part of the way from nothing. -/
def sweepArc {α : Type} [Scalar α] (part : α) (arc : α × α) : α × α := (lerp 0 arc.1 part, lerp 0 arc.2 part)

/-- Arcs from one angle on to another, each beginning where the one before ends. -/
inductive Chained : ℚ → List (Extended × Extended) → ℚ → Prop
  | nil (a : ℚ) : Chained a [] a
  | cons {a b c : ℚ} {arcs : List (Extended × Extended)} :
      a ≤ b → Chained b arcs c → Chained a ((finite a, finite b) :: arcs) c

/-- Arcs that cut the angles from zero up to `whole` in pieces, in their order. -/
structure Cuts (arcs : List (Extended × Extended)) (whole : ℚ) : Prop where
  first : ∀ arc, arcs.head? = some arc → arc.1 = finite 0
  next : ∀ i arc arc', arcs[i]? = some arc → arcs[i + 1]? = some arc' → arc'.1 = arc.2
  last : ∀ arc, arcs.getLast? = some arc → arc.2 = finite whole
  once : ∀ angle : ℚ, 0 ≤ angle → angle < whole →
    ∃! i : Nat, ∃ arc, arcs[i]? = some arc ∧ arc.1 ≤ finite angle ∧ finite angle < arc.2
  inside : ∀ arc ∈ arcs, finite 0 ≤ arc.1 ∧ arc.1 ≤ arc.2 ∧ arc.2 ≤ finite whole

namespace Chained

variable {a c : ℚ} {arcs : List (Extended × Extended)}

theorem le (h : Chained a arcs c) : a ≤ c := by
  induction h with
  | nil a => exact le_refl a
  | cons hab _ ih => exact hab.trans ih

theorem mem (h : Chained a arcs c) {arc : Extended × Extended} (hmem : arc ∈ arcs) :
    ∃ x y, arc = (finite x, finite y) ∧ a ≤ x ∧ x ≤ y ∧ y ≤ c := by
  induction h with
  | nil a => cases hmem
  | cons hab hrest ih =>
    rcases List.mem_cons.1 hmem with rfl | hmem
    · exact ⟨_, _, rfl, le_refl _, hab, hrest.le⟩
    · obtain ⟨x, y, rfl, hx, hxy, hy⟩ := ih hmem
      exact ⟨x, y, rfl, hab.trans hx, hxy, hy⟩

theorem head (h : Chained a arcs c) {arc : Extended × Extended} (hhead : arcs.head? = some arc) :
    arc.1 = finite a := by
  cases h with
  | nil => cases hhead
  | cons => cases hhead; rfl

theorem next (h : Chained a arcs c) {i : Nat} {arc arc' : Extended × Extended} (hi : arcs[i]? = some arc)
    (hi' : arcs[i + 1]? = some arc') : arc'.1 = arc.2 := by
  induction h generalizing i with
  | nil => cases hi
  | cons hab hrest ih =>
    cases i with
    | zero =>
      cases hi
      rw [List.getElem?_cons_succ, ← List.head?_eq_getElem?] at hi'
      exact hrest.head hi'
    | succ i => exact ih hi hi'

theorem last (h : Chained a arcs c) {arc : Extended × Extended} (hlast : arcs.getLast? = some arc) :
    arc.2 = finite c := by
  induction h with
  | nil => cases hlast
  | @cons a b c rest hab hrest ih =>
    cases hrest with
    | nil => cases hlast; rfl
    | cons hbd hrest => exact ih (by simpa using hlast)

/-- Every angle on the way lies in one arc: in the first, or past it and in one of the others. -/
theorem once (h : Chained a arcs c) {angle : ℚ} (ha : a ≤ angle) (hc : angle < c) :
    ∃! i : Nat, ∃ arc, arcs[i]? = some arc ∧ arc.1 ≤ finite angle ∧ finite angle < arc.2 := by
  induction h with
  | nil a => exact absurd (ha.trans_lt hc) (lt_irrefl a)
  | @cons a b c rest hab hrest ih =>
    by_cases hb : angle < b
    · refine ⟨0, ⟨_, rfl, Extended.finite_le.2 ha, Extended.finite_lt.2 hb⟩, ?_⟩
      rintro i ⟨arc, hi, hle, -⟩
      cases i with
      | zero => rfl
      | succ i =>
        obtain ⟨x, y, rfl, hx, -, -⟩ := hrest.mem (List.mem_of_getElem? hi)
        exact absurd (Extended.finite_le.1 hle) (not_le.2 (hb.trans_le hx))
    · obtain ⟨i, hi, hunique⟩ := ih (not_lt.1 hb) hc
      refine ⟨i + 1, hi, ?_⟩
      rintro j ⟨arc, hj, hle, hlt⟩
      cases j with
      | zero =>
        cases hj
        exact absurd (Extended.finite_lt.1 hlt) hb
      | succ j => rw [hunique j ⟨arc, hj, hle, hlt⟩]

theorem cuts (h : Chained 0 arcs c) : Cuts arcs c where
  first _ := h.head
  next _ _ _ := h.next
  last _ := h.last
  once _ := h.once
  inside arc harc := by
    obtain ⟨x, y, rfl, hx, hxy, hy⟩ := h.mem harc
    exact ⟨Extended.finite_le.2 hx, Extended.finite_le.2 hxy, Extended.finite_le.2 hy⟩

/-- Arcs keep their order while they sweep in. -/
theorem sweep (h : Chained a arcs c) {part : ℚ} (hpart : 0 ≤ part) :
    Chained (a * part) (arcs.map (sweepArc (finite part))) (c * part) := by
  have hlerp : ∀ x : ℚ, lerp 0 (finite x) (finite part) = finite (x * part) := fun x => by simp [lerp]
  induction h with
  | nil a => exact .nil _
  | cons hab hrest ih =>
    simp only [List.map_cons, sweepArc, hlerp]
    exact .cons (mul_le_mul_of_nonneg_right hab hpart) ih

end Chained

/-! ## Slices -/

section

variable {α : Type}

/-- Where a slice begins and ends. -/
def Slice.arc (s : Slice α) : α × α := (s.start, s.finish)

variable [Scalar α] [Trig α]

theorem index_of_getElem?_slicesFrom {whole angle : α} {index : Nat} {data : List (Datum α)} {i : Nat}
    {s : Slice α} (h : (slicesFrom whole index angle data)[i]? = some s) : s.index = index + i := by
  induction data generalizing index angle i with
  | nil => cases h
  | cons datum rest ih =>
    cases i with
    | zero =>
      cases h
      rfl
    | succ i =>
      rw [ih h]
      omega

theorem allZero_iff (data : List (Datum α)) :
    (pie data).allZero = true ↔ ∀ s ∈ (pie data).slices, s.isNearZero = true := by
  have hdata : (pie data).allZero = (((pie data).slices.map (·.datum)).all fun d => d.magnitude ≤ threshold) := by
    rw [map_datum_slices]
    rfl
  rw [hdata, List.all_map, List.all_eq_true]
  rfl

end

section

variable [Trig Extended] {τ total : ℚ}

theorem finish_extended (hτ : (Trig.tau : Extended) = finite τ) (htotal : 0 < total) (angle : ℚ)
    (datum : Datum Extended) :
    finite angle + weight datum / finite total * Trig.tau = finite (angle + share datum / total * τ) := by
  rw [weight_extended, hτ, Extended.finite_div _ htotal.ne', Extended.finite_mul, Extended.finite_add]

theorem chained_slicesFrom (hτ : (Trig.tau : Extended) = finite τ) (hτpos : 0 < τ) (htotal : 0 < total)
    (index : Nat) (angle : ℚ) (data : List (Datum Extended)) :
    Chained angle ((slicesFrom (finite total) index (finite angle) data).map Slice.arc)
      (angle + (data.map share).sum / total * τ) := by
  induction data generalizing index angle with
  | nil => simpa [slicesFrom] using Chained.nil angle
  | cons datum rest ih =>
    have hend : angle + ((datum :: rest).map share).sum / total * τ =
        angle + share datum / total * τ + (rest.map share).sum / total * τ := by
      rw [List.map_cons, List.sum_cons]
      ring
    have hwide : 0 ≤ share datum / total * τ := by
      have := share_pos datum
      positivity
    rw [hend, slicesFrom, finish_extended hτ htotal, List.map_cons]
    exact .cons (le_add_of_nonneg_right hwide) (ih _ _)

theorem span_of_mem_slicesFrom (hτ : (Trig.tau : Extended) = finite τ) (htotal : 0 < total) {index : Nat}
    {angle : ℚ} {data : List (Datum Extended)} {s : Slice Extended}
    (h : s ∈ slicesFrom (finite total) index (finite angle) data) :
    s.span = finite (share s.datum / total * τ) := by
  induction data generalizing index angle with
  | nil => cases h
  | cons datum rest ih =>
    rw [slicesFrom, finish_extended hτ htotal] at h
    rcases List.mem_cons.1 h with rfl | h
    · rw [Slice.span, Extended.finite_sub, add_sub_cancel_left]
    · exact ih h

end

end Donut

/-! ## Sectors while they sweep in -/

section

variable {α : Type}

/-- Where a sector begins and ends. -/
def Shape.arc? : Shape α → Option (α × α)
  | .sector wedge => some (wedge.start, wedge.finish)
  | _ => none

variable [Scalar α]

/-- The sectors of a layer as they look some time after it was drawn. -/
def Layer.arcsAt (l : Layer α) (elapsed : Duration) : List (α × α) :=
  l.elements.filterMap fun e => (e.sampledShape elapsed).arc?

theorem Element.arc?_sampledShape_of_none {e : Element α} (h : e.shape.arc? = none) (elapsed : Duration) :
    (e.sampledShape elapsed).arc? = none := by
  obtain ⟨shape, style, target, transition⟩ := e
  cases transition with
  | none => exact h
  | some transition =>
    obtain ⟨kind, duration⟩ := transition
    cases shape with
    | sector wedge => cases h
    | _ => cases kind <;> rfl

theorem arc?_of_mem_panelLayer {title : String} {panel : Panel α} {e : Element α}
    (h : e ∈ (panelLayer title panel).elements) : e.shape.arc? = none := by
  rcases List.mem_cons.1 h with rfl | h
  · rfl
  · rw [List.mem_singleton.1 h]
    rfl

namespace Donut

variable {data : List (Datum α)} {panel : Panel α} {options : Options α} {palette : Palette} {ring : Ring α}
  {e : Element α}

theorem arc?_of_mem_legend (h : e ∈ legend data panel ring palette) : e.shape.arc? = none := by
  rw [legend, mem_flatten_mapIdx] at h
  obtain ⟨i, datum, -, he⟩ := h
  rcases List.mem_cons.1 he with rfl | he
  · rfl
  · rw [List.mem_singleton.1 he]
    rfl

theorem arc?_of_mem_center {total : α} {color : Rgb} (h : e ∈ center ring options total color) :
    e.shape.arc? = none := by
  obtain ⟨-, -, label, hshape⟩ := center_spec h
  rw [hshape]
  rfl

theorem arc?_sliceElement (ring : Ring α) (allZero : Bool) (palette : Palette) (s : Slice α) (elapsed : Duration) :
    ((sliceElement ring allZero palette s).sampledShape elapsed).arc? =
      some (sweepArc (Transition.progress ⟨.sweepAngles, entrance⟩ elapsed) s.arc) := by
  rw [Element.sampledShape, sliceElement_transition, (sliceElement_spec ring allZero palette s).1]
  rfl

/-- The sectors of a donut are those of its slices, all of them the same part of the way on. -/
theorem arcsAt_render [Trig α] (data : List (Datum α)) (title : String) (panel : Panel α) (options : Options α)
    (palette : Palette) (elapsed : Duration) :
    (render data title panel options palette).arcsAt elapsed =
      ((pie data).slices.map Slice.arc).map (sweepArc (Transition.progress ⟨.sweepAngles, entrance⟩ elapsed)) := by
  have hnone : ∀ es : List (Element α), (∀ e ∈ es, e.shape.arc? = none) →
      es.filterMap (fun e => (e.sampledShape elapsed).arc?) = [] := fun es hes =>
    List.filterMap_eq_nil_iff.2 fun e he => Element.arc?_sampledShape_of_none (hes e he) elapsed
  have hslices : ∀ (ring : Ring α) (allZero : Bool),
      ((pie data).slices.map (sliceElement ring allZero palette)).filterMap
          (fun e => (e.sampledShape elapsed).arc?) =
        ((pie data).slices.map Slice.arc).map
          (sweepArc (Transition.progress ⟨.sweepAngles, entrance⟩ elapsed)) := by
    intro ring allZero
    rw [List.filterMap_map, List.map_map, ← List.filterMap_eq_map]
    exact List.filterMap_congr fun s _ => arc?_sliceElement ring allZero palette s elapsed
  have hlegend : ∀ ring, ∀ e ∈ (if options.sideLabels then legend data panel ring palette else []),
      e.shape.arc? = none := by
    intro ring e he
    split at he
    · exact arc?_of_mem_legend he
    · cases he
  simp only [Layer.arcsAt, render, List.filterMap_append, hslices, hnone _ fun _ => arc?_of_mem_panelLayer,
    hnone _ (hlegend _), hnone _ fun _ => arc?_of_mem_center, List.nil_append, List.append_nil]

end Donut

end

/-! ## The ring -/

namespace Donut

variable [Trig Extended] {τ : ℚ} {data : List (Datum Extended)}

/-- How data divide a ring of the full turn `τ`. -/
structure Divided (τ : ℚ) (data : List (Datum Extended)) (pie : Pie Extended) : Prop where
  carries : pie.slices.map (·.datum) = data ∧
    ∀ (i : Nat) (s : Slice Extended), pie.slices[i]? = some s → s.index = i
  cuts : Cuts (pie.slices.map Slice.arc) τ
  magnitude : ∀ s ∈ pie.slices, s.datum.magnitude = finite s.datum.size
  span : ∀ s ∈ pie.slices, s.span = finite (share s.datum / (data.map share).sum * τ) ∧ finite 0 < s.span
  /-- A slice is the narrower one if its value is less, unless both are so little that they count the same. -/
  ordered : ∀ s ∈ pie.slices, ∀ t ∈ pie.slices,
    (s.datum.magnitude ≤ t.datum.magnitude → s.span ≤ t.span) ∧
      (s.span < t.span ↔ s.datum.magnitude < t.datum.magnitude ∧ threshold < t.datum.magnitude)
  allZero : pie.allZero = true ↔ ∀ s ∈ pie.slices, s.isNearZero = true

theorem chained_pie (hτ : (Trig.tau : Extended) = finite τ) (hpos : 0 < τ) (hdata : data ≠ []) :
    Chained 0 ((pie data).slices.map Slice.arc) τ := by
  have hsum := sum_share_pos hdata
  have hchained := chained_slicesFrom hτ hpos hsum 0 0 data
  rw [zero_add, div_self hsum.ne', one_mul] at hchained
  rw [pie, sum_weight]
  exact hchained

theorem pie_divided (hτ : (Trig.tau : Extended) = finite τ) (hpos : 0 < τ) (hdata : data ≠ []) :
    Divided τ data (pie data) := by
  have hsum := sum_share_pos hdata
  have hspan : ∀ s ∈ (pie data).slices, s.span = finite (share s.datum / (data.map share).sum * τ) := by
    intro s hs
    rw [pie, sum_weight] at hs
    exact span_of_mem_slicesFrom hτ hsum hs
  refine ⟨⟨map_datum_slices data, fun i s hs => ?_⟩, (chained_pie hτ hpos hdata).cuts,
    fun s _ => s.datum.magnitude_extended, fun s hs => ⟨hspan s hs, ?_⟩, fun s hs t ht => ?_, allZero_iff data⟩
  · rw [index_of_getElem?_slicesFrom hs, Nat.zero_add]
  · have hshare := share_pos s.datum
    rw [hspan s hs, Extended.finite_lt]
    positivity
  · have hlt : ∀ d e : Datum Extended, share d / (data.map share).sum * τ < share e / (data.map share).sum * τ ↔
        d.size < e.size ∧ 1 / 10 ^ 6 < e.size := fun d e => by
      rw [mul_lt_mul_iff_left₀ hpos, div_lt_div_iff_of_pos_right hsum, share_lt_iff]
    rw [hspan s hs, hspan t ht, Datum.magnitude_extended, Datum.magnitude_extended, threshold_extended]
    simp only [Extended.finite_le, Extended.finite_lt]
    exact ⟨fun hle => not_lt.1 fun hless => ((hlt t.datum s.datum).1 hless).1.not_ge hle, hlt s.datum t.datum⟩

/-- **Slices divide the ring at every moment of the entrance.** Whatever the values, the slices of some data
follow one another around the ring in the order of the data, each as wide as its share. The sectors of the chart
are the slices the eased part of the way on: they divide the angles up to that part of the turn. -/
theorem pie_cuts (hτ : (Trig.tau : Extended) = finite τ) (hpos : 0 < τ) (hdata : data ≠ []) :
    Divided τ data (pie data) ∧
    ∀ (title : String) (panel : Panel Extended) (options : Options Extended) (palette : Palette) (elapsed : Duration),
      let eased : ℚ := Transition.progress ⟨.sweepAngles, entrance⟩ elapsed
      let arcs := (render data title panel options palette).arcsAt elapsed
      0 ≤ eased ∧ eased ≤ 1 ∧ arcs = ((pie data).slices.map Slice.arc).map (sweepArc (finite eased)) ∧
        Cuts arcs (eased * τ) := by
  refine ⟨pie_divided hτ hpos hdata, fun title panel options palette elapsed => ?_⟩
  intro eased arcs
  obtain ⟨hnonneg, hone⟩ := Transition.progress_mem ⟨.sweepAngles, entrance⟩ elapsed
  have harcs : arcs = ((pie data).slices.map Slice.arc).map (sweepArc (finite eased)) := by
    rw [← Transition.progress_extended]
    exact arcsAt_render data title panel options palette elapsed
  have hchained := (chained_pie hτ hpos hdata).sweep hnonneg
  rw [zero_mul, mul_comm, ← harcs] at hchained
  exact ⟨hnonneg, hone, harcs, hchained.cuts⟩

omit [Trig Extended] in
/-- Values of every kind, halfway through the entrance: the sectors divide half of the turn. -/
theorem pie_cuts_halfway :
    letI : Trig Extended := Extended.trig
    let data : List (Datum Extended) := [⟨"root", .finite 3⟩, ⟨"idle", .finite 0⟩, ⟨"idle", .finite (-2)⟩,
      ⟨"over", .infinite false⟩, ⟨"none", .nan⟩]
    Divided Trig.rational.turn data (pie data) ∧
      ∀ panel : Panel Extended, Cuts ((render data "Children Capacities" panel {} .queues).arcsAt (.millis 250))
        (1 / 2 * Trig.rational.turn) := by
  let trig : Trig Extended := Extended.trig
  intro data
  obtain ⟨hdivided, hsectors⟩ :=
    pie_cuts (show Trig.tau = finite Trig.rational.turn from rfl) (by decide +kernel) (show data ≠ [] by simp [data])
  refine ⟨hdivided, fun panel => ?_⟩
  have heased : (Transition.progress ⟨.sweepAngles, entrance⟩ (.millis 250) : ℚ) = 1 / 2 := by decide +kernel
  obtain ⟨-, -, -, hcuts⟩ := hsectors "Children Capacities" panel {} .queues (.millis 250)
  rw [heased] at hcuts
  exact hcuts

end Donut

end QueueBoard
