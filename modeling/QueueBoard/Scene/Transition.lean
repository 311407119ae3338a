import QueueBoard.Scalar
/-!
# Entrance transitions

An element is given in its final state, with a transition that says how to get there from an empty
state. Hosts ask for the state at an elapsed time; a redraw starts the clock again.
-/

namespace QueueBoard

variable {α : Type} [Scalar α]

/-- A length of time. -/
structure Duration where
  nanos : Nat
  deriving Repr, BEq, DecidableEq, Inhabited

namespace Duration

/-- Whole microseconds. -/
def micros (n : Nat) : Duration := ⟨n * 1000⟩

/-- Whole milliseconds. -/
def millis (n : Nat) : Duration := ⟨n * 1000000⟩

/-- Nanoseconds in a second. -/
def nanosPerSecond : Nat := 1000000000

/-- The length in whole microseconds. -/
def toMicros (d : Duration) : Nat := d.nanos / 1000

/-- The length in seconds: whole seconds and the rest, each rounded once. -/
def seconds (d : Duration) : α :=
  Scalar.ofNat (d.nanos / nanosPerSecond) +
    Scalar.ofNat (d.nanos % nanosPerSecond) / Scalar.ofNat nanosPerSecond

/-- The nearest length of time to `x` times this one. -/
def scale (d : Duration) (x : α) : Duration := ⟨Scalar.nanoseconds (x * d.seconds)⟩

end Duration

/-- How an element enters. -/
inductive TransitionKind where
  /-- The width of a rectangle grows from zero, its left edge staying. -/
  | growWidth
  /-- Both angles of a sector sweep from zero. -/
  | sweepAngles
  deriving Repr, BEq, DecidableEq

/-- A way to enter, and the time it takes. -/
structure Transition where
  kind : TransitionKind
  duration : Duration
  deriving Repr, BEq, DecidableEq

/-- How long every chart entrance takes. -/
def entrance : Duration := .millis 500

/-- Cubic easing: slow, fast, slow. -/
def easeCubicInOut (t : α) : α :=
  let t := Scalar.clamp t 0 1 * 2
  if t ≤ 1 then t * t * t / 2
  else
    let t := t - 2
    (t * t * t + 2) / 2

/-- The value a part `t` of the way. -/
def lerp (start finish t : α) : α := start + (finish - start) * t

namespace Transition

/-- The eased part of the way after some time. -/
def progress (transition : Transition) (elapsed : Duration) : α :=
  if transition.duration.nanos = 0 ∨ transition.duration.nanos ≤ elapsed.nanos then 1
  else easeCubicInOut (elapsed.seconds / transition.duration.seconds)

/-- Whether the final state is reached. -/
def isFinished (transition : Transition) (elapsed : Duration) : Bool :=
  transition.duration.nanos ≤ elapsed.nanos

end Transition

end QueueBoard
