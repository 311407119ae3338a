import QueueBoard.Geometry.Point
/-!
# Sectors of a ring

The part of a ring between two angles. Angles are measured clockwise from twelve o'clock, so zero
points up and a quarter turn to the right.
-/

namespace QueueBoard

variable {α : Type} [Scalar α] [Trig α]

/-- A wedge of the ring between two radii. -/
structure Sector (α : Type) where
  center : Point α
  inner : α
  outer : α
  start : α
  finish : α
  deriving Repr, DecidableEq

namespace Sector

/-- The angle swept by the wedge. -/
def span (s : Sector α) : α := s.finish - s.start

/-- The same ring between other angles. -/
def withAngles (s : Sector α) (start finish : α) : Sector α := { s with start, finish }

/-- The point at a radius and an angle around the center. -/
def pointAt (s : Sector α) (radius angle : α) : Point α :=
  ⟨s.center.x + radius * Trig.sin angle, s.center.y - radius * Trig.cos angle⟩

/-- The angle of a point around the center, in `[0, turn)`. -/
def angleOf (s : Sector α) (p : Point α) : α :=
  let a := Trig.atan2 (p.x - s.center.x) (s.center.y - p.y)
  if a < 0 then a + Trig.tau else a

/-- Whether a point lies in the wedge. A wedge of a whole turn or more is the ring; one that sweeps
nothing is empty. The first angle belongs to the wedge, the last does not. -/
def contains (s : Sector α) (p : Point α) : Bool :=
  let dx := p.x - s.center.x
  let dy := p.y - s.center.y
  if Scalar.shorter dx dy s.inner || Scalar.longer dx dy s.outer || s.span ≤ 0 then false
  else if Trig.tau ≤ s.span then true
  else
    let a := s.angleOf p
    s.start ≤ a && a < s.finish

/-- The middle of the wedge. -/
def centroid (s : Sector α) : Point α :=
  s.pointAt ((s.inner + s.outer) / 2) ((s.start + s.finish) / 2)

/-- A circular arc of the given radius to a point. -/
def arcText (radius : α) (large clockwise : Bool) (finish : Point α) : String :=
  let r := Coordinate.text radius
  let flag := fun (b : Bool) => if b then "1" else "0"
  "A" ++ r ++ "," ++ r ++ " 0 " ++ flag large ++ "," ++ flag clockwise ++ " " ++ finish.text

/-- The outline as a path attribute. A whole turn needs two arcs for each radius, since the ends of
an arc must differ. -/
def text (s : Sector α) : String :=
  if Trig.tau - 1e-9 ≤ s.span then
    let half := Trig.tau / 2
    let ring := fun (radius : α) (clockwise : Bool) =>
      let top := s.pointAt radius 0
      "M" ++ top.text ++ arcText radius true clockwise (s.pointAt radius half) ++
        arcText radius true clockwise top
    ring s.outer true ++ ring s.inner false ++ "Z"
  else
    let large : Bool := Trig.tau / 2 < s.span
    "M" ++ (s.pointAt s.outer s.start).text ++
      arcText s.outer large true (s.pointAt s.outer s.finish) ++
      "L" ++ (s.pointAt s.inner s.finish).text ++
      arcText s.inner large false (s.pointAt s.inner s.start) ++ "Z"

end Sector

end QueueBoard
