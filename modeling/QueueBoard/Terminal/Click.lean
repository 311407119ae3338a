import QueueBoard.Scene.Transition
/-!
# Clicks and clocks

What a screen remembers from one moment to the next. Two clicks on one cell within a window of time
make a double click, and a third one starts over. Entrances begin when a picture is drawn anew;
times are lengths since the program began.
-/

namespace QueueBoard.Terminal

/-- What a click turns out to be. -/
inductive Click where
  | single
  | double
  deriving Repr, BEq, DecidableEq

/-- Remembers the last click that may become the first of two. Times have the unit of the window. -/
structure ClickTracker where
  window : Nat
  /-- Time, column and row. -/
  last : Option (Nat × Nat × Nat) := none
  deriving Repr, BEq, DecidableEq

/-- Takes a click. A time before that of the last click counts as the same time. -/
def ClickTracker.register (t : ClickTracker) (time column row : Nat) : Click × ClickTracker :=
  match t.last with
  | some (before, c, r) =>
    if c = column ∧ r = row ∧ time - before ≤ t.window then (.double, { t with last := none })
    else (.single, { t with last := some (time, column, row) })
  | none => (.single, { t with last := some (time, column, row) })

/-- When the picture last seen was drawn, and its generation. -/
structure SceneClock where
  drawnAt : Duration
  generation : Nat := 0
  deriving Repr, BEq, DecidableEq

namespace SceneClock

/-- Starts over if the picture is another one. -/
def sync (c : SceneClock) (now : Duration) (generation : Nat) : SceneClock :=
  if generation = c.generation then c else ⟨now, generation⟩

/-- The time since the picture was drawn. -/
def elapsed (c : SceneClock) (now : Duration) : Duration := ⟨now.nanos - c.drawnAt.nanos⟩

end SceneClock

end QueueBoard.Terminal
