import QueueBoard.Chart.Panel
/-!
# Donut charts

A ring cut into one slice per datum, clockwise from twelve o'clock in input order. Every value
counts at least a millionth, so zero entries keep a sliver and all-zero data split the ring evenly.
-/

namespace QueueBoard.Donut

variable {α : Type} [Scalar α] [Trig α]

/-- Values up to this are drawn as empty dashed slices. -/
def threshold : α := 1e-6
/-- The inner radius as a part of the outer one. -/
def innerRatio : α := 0.618
/-- Room above the ring for the title. -/
def titleRoom : α := 50
/-- Edge of a legend's color field. -/
def swatch : α := 15
/-- Space around a legend's color field. -/
def swatchGap : α := 10

/-- What a donut shows beside its ring. -/
structure Options (α : Type) where
  /-- A legend to the right of the ring, which then moves to the left. -/
  sideLabels : Bool := false
  /-- The caption in the hole; without one, or with an empty one, there is no number either. -/
  centerLabel : Option String := some "Total"
  /-- The number under the caption; the sum of the values if not given. -/
  centerValue : Option α := none
  deriving Repr, DecidableEq

/-- The same donut with a legend. -/
def Options.withSideLabels (o : Options α) : Options α := { o with sideLabels := true }

/-- The same donut with a caption and a number. -/
def Options.withCenter (o : Options α) (label : String) (value : α) : Options α :=
  { o with centerLabel := some label, centerValue := some value }

/-- A datum and its part of the ring. -/
structure Slice (α : Type) where
  datum : Datum α
  index : Nat
  start : α
  finish : α
  deriving Repr, DecidableEq

/-- The angle of a slice. -/
def Slice.span (s : Slice α) : α := s.finish - s.start

/-- Whether a slice is drawn empty. -/
def Slice.isNearZero (s : Slice α) : Bool := s.datum.magnitude ≤ threshold

/-- The slices of a ring. -/
structure Pie (α : Type) where
  slices : List (Slice α)
  allZero : Bool
  total : α
  deriving Repr, DecidableEq

/-- The magnitude that decides a slice's angle. -/
def weight (d : Datum α) : α := Scalar.max d.magnitude threshold

/-- Slices of the given data from an index and an angle on. -/
def slicesFrom (whole : α) : Nat → α → List (Datum α) → List (Slice α)
  | _, _, [] => []
  | index, angle, datum :: rest =>
    let finish := angle + weight datum / whole * Trig.tau
    ⟨datum, index, angle, finish⟩ :: slicesFrom whole (index + 1) finish rest

/-- The ring of the data. -/
def pie (data : List (Datum α)) : Pie α :=
  { slices := slicesFrom (Scalar.sum (data.map weight)) 0 0 data
    allZero := data.all fun d => d.magnitude ≤ threshold
    total := Scalar.sum (data.map Datum.magnitude) }

/-- Where a ring is. -/
structure Ring (α : Type) where
  center : Point α
  outer : α
  inner : α
  deriving Repr, DecidableEq

/-- The largest ring below the title of a panel. -/
def ring (panel : Panel α) (sideLabels : Bool) : Ring α :=
  let outer := Scalar.max ((panel.height - titleRoom - 2 * panel.margin) / 2) 0
  let y := panel.y1 + titleRoom + panel.margin + outer
  let x := if sideLabels then panel.x1 + panel.margin + outer else panel.centerX
  ⟨⟨x, y⟩, outer, outer * innerRatio⟩

/-- The element of a slice: filled, or dashed if it is near zero. -/
def sliceElement (ring : Ring α) (allZero : Bool) (palette : Palette) (slice : Slice α) :
    Element α :=
  let color := palette.color slice.index
  let base := ((Element.ofShape (.sector ⟨ring.center, ring.inner, ring.outer, slice.start,
    slice.finish⟩)).role "arc").enter ⟨.sweepAngles, entrance⟩
  let painted :=
    if slice.isNearZero then
      ((base.fill .background).stroke (if allZero then color else .neutral) 1).dashed 10 10
    else if allZero then (base.fill color).stroke color 1
    else base.fill color
  painted.bind slice.datum

/-- The legend's color field and text of one datum. -/
def legendRow (panel : Panel α) (left : α) (index : Nat) (datum : Datum α) (color : Rgb) :
    List (Element α) :=
  let y := panel.y1 + titleRoom + (swatch + swatchGap) * Scalar.ofNat index + panel.margin
  [((Element.ofShape (.rect ⟨left, y⟩ swatch swatch)).fill color).role "swatch",
    (captionAt ⟨left + swatch + swatchGap, y + swatch / 2⟩ datum.describe .ink).role "side-label"]

/-- The legend of a donut. -/
def legend (data : List (Datum α)) (panel : Panel α) (ring : Ring α) (palette : Palette) :
    List (Element α) :=
  let left := panel.x1 + panel.margin + ring.outer * 2 + 30
  (data.mapIdx fun i datum => legendRow panel left i datum (palette.color i)).flatten

/-- The caption and the number in the hole. -/
def center (ring : Ring α) (options : Options α) (total : α) (color : Rgb) : List (Element α) :=
  match options.centerLabel with
  | none | some "" => []
  | some caption =>
    let value := options.centerValue.getD total
    let entry := fun (dy : α) (text : String) (size : α) =>
      (((captionAt (ring.center.offset 0 dy) text color).anchor .middle).fontSize size).role
        "donut-highlight-text"
    [entry (-20) caption 16, entry 30 (Scalar.text value) 40]

/-- The layer of a donut chart in a panel. -/
def render (data : List (Datum α)) (title : String) (panel : Panel α) (options : Options α)
    (palette : Palette) : Layer α :=
  let base := panelLayer title panel
  let layout := pie data
  let ring := ring panel options.sideLabels
  let slices := layout.slices.map (sliceElement ring layout.allZero palette)
  let side := if options.sideLabels then legend data panel ring palette else []
  { base with
    elements :=
      base.elements ++ slices ++ side ++ center ring options layout.total palette.primary }

end QueueBoard.Donut
