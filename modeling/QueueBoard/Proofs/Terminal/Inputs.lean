import QueueBoard.Proofs.Dashboard.Run
import QueueBoard.Terminal.App
/-!
# What the dashboard is given

A board is given a snapshot and a width; all else on it is the user's doing. Keys, the pointer and frames
leave what is given alone, and a message does to it what it says (`process_given`). So after any inputs the
boards show what the messages among them have brought, in their order (`foldl_given`).
-/

namespace QueueBoard

/-- What a board is given. -/
structure Given (σ α : Type) where
  snapshot : σ
  width : α

/-- The width of a board that is told to have another; a difference nobody can see is none. -/
def nextWidth {α : Type} [Scalar α] (width told : α) : α :=
  if Scalar.epsilon < Scalar.abs (told - width) then told else width

/-! ## Messages -/

section

variable {σ α : Type}

namespace Terminal.Action

/-- The tree that a message brings. -/
def tree? : Action α → Option (QueueTree α)
  | .queuesLoaded records => some (.build records)
  | _ => none

/-- The counters that a message brings. -/
def metrics? : Action α → Option (ClusterMetrics α)
  | .metricsLoaded metrics => some metrics
  | _ => none

/-- The columns that a message tells. -/
def columns? : Action α → Option Nat
  | .resize columns _ => some columns
  | _ => none

end Terminal.Action

open Terminal (Action canvasWidth)

namespace Given

variable [Scalar α]

/-- What a board is given once a message has come. -/
def take (snapshot? : Action α → Option σ) (g : Given σ α) (action : Action α) : Given σ α where
  snapshot := (snapshot? action).getD g.snapshot
  width := action.columns?.elim g.width fun columns => nextWidth g.width (canvasWidth columns)

/-- The width of a board follows the columns that messages tell. -/
theorem foldl_take_width (snapshot? : Action α → Option σ) (g : Given σ α) (messages : List (Action α)) :
    (messages.foldl (take snapshot?) g).width =
      (messages.filterMap Action.columns?).foldl (fun width columns => nextWidth width (canvasWidth columns))
        g.width := by
  induction messages generalizing g with
  | nil => rfl
  | cons action messages ih =>
    rw [List.foldl_cons, ih, List.filterMap_cons, take]
    cases action.columns? <;> rfl

end Given

end

/-! ## The boards -/

namespace QueueDashboard

variable {α : Type}

/-- The tree and the width of the board. -/
def given (d : QueueDashboard α) : Given (QueueTree α) α := ⟨d.tree, d.width⟩

variable [Scalar α]

theorem given_hover (d : QueueDashboard α) (name : Option String) : (d.hover name).given = d.given := by
  rw [hover_frame]
  rfl

theorem given_pointerLeft (d : QueueDashboard α) : d.pointerLeft.given = d.given := by
  rw [pointerLeft_eq]
  exact d.given_hover none

variable [Trig α]

theorem given_pointerMoved (d : QueueDashboard α) (p : Point α) : (d.pointerMoved p).given = d.given :=
  d.given_hover _

theorem given_toggleFold (d : QueueDashboard α) (name : String) : (d.toggleFold name).2.given = d.given := by
  rcases d.toggleFold_cases name with h | h <;> rw [h]
  rfl

theorem given_click (d : QueueDashboard α) (p : Point α) : (d.click p).2.given = d.given := by
  unfold click
  split <;> rfl

theorem given_doubleClick (d : QueueDashboard α) (p : Point α) : (d.doubleClick p).2.given = d.given := by
  unfold doubleClick
  split
  · rfl
  · exact d.given_toggleFold _

theorem given_resize (d : QueueDashboard α) (width : α) :
    (d.resize width).given = { d.given with width := nextWidth d.width width } := by
  unfold resize nextWidth
  split <;> rfl

end QueueDashboard

namespace ClusterDashboard

variable {α : Type} [Scalar α] [Trig α]

omit [Scalar α] [Trig α] in
/-- The counters and the width of the board. -/
def given (d : ClusterDashboard α) : Given (ClusterMetrics α) α := ⟨d.metrics, d.width⟩

theorem given_resize (d : ClusterDashboard α) (width : α) :
    (d.resize width).given = { d.given with width := nextWidth d.width width } := by
  unfold resize nextWidth
  split <;> rfl

end ClusterDashboard

namespace Terminal

variable {α : Type} [Scalar α] [Trig α]

/-! ## The screens -/

namespace QueuesScreen

theorem given_selectNeighbor (s : QueuesScreen α) (offset : Int) :
    (s.selectNeighbor offset).dashboard.given = s.dashboard.given := by
  unfold selectNeighbor
  split <;> rfl

theorem given_toggleSelected (s : QueuesScreen α) : s.toggleSelected.dashboard.given = s.dashboard.given := by
  unfold toggleSelected
  split
  · exact s.dashboard.given_toggleFold _
  · rfl

theorem given_command {s : QueuesScreen α} {code : KeyCode} {command : QueuesScreen α → QueuesScreen α}
    (h : command? code = some command) : (command s).dashboard.given = s.dashboard.given := by
  unfold command? at h
  split at h <;> cases h
  all_goals first | exact s.given_selectNeighbor _ | exact s.given_toggleSelected

theorem given_onKey (s : QueuesScreen α) (now : Duration) (key : Key) :
    (s.onKey now key).dashboard.given = s.dashboard.given := by
  unfold onKey
  split
  · rfl
  · split
    · rename_i command hcommand
      exact given_command hcommand
    · rfl

theorem given_hover (s : QueuesScreen α) (point : Option (Point α)) :
    (s.hover point).dashboard.given = s.dashboard.given := by
  cases point with
  | some p => exact s.dashboard.given_pointerMoved p
  | none => exact s.dashboard.given_pointerLeft

theorem given_press (s : QueuesScreen α) (now : Duration) (pointer : Pointer) (p : Point α) :
    (s.press now pointer p).dashboard.given = s.dashboard.given := by
  simp only [press]
  split
  · exact s.dashboard.given_click p
  · exact s.dashboard.given_doubleClick p

theorem given_onPointer (s : QueuesScreen α) (now : Duration) (pointer : Pointer) :
    (s.onPointer now pointer).dashboard.given = s.dashboard.given := by
  simp only [onPointer]
  split
  · exact s.given_hover _
  · exact s.given_hover _
  · split
    · exact s.given_press now pointer _
    · rfl
  all_goals rfl

end QueuesScreen

namespace ClusterScreen

omit [Trig α] in
theorem given_onKey (s : ClusterScreen α) (key : Key) : (s.onKey key).dashboard.given = s.dashboard.given := by
  unfold onKey
  split <;> rfl

theorem given_onPointer (s : ClusterScreen α) (pointer : Pointer) :
    (s.onPointer pointer).dashboard.given = s.dashboard.given := by
  unfold onPointer
  split
  · split <;> rfl
  all_goals rfl

end ClusterScreen

namespace App

/-- What the boards are given. -/
def given (a : App α) : Given (QueueTree α) α × Given (ClusterMetrics α) α :=
  (a.queues.dashboard.given, a.cluster.dashboard.given)

/-- **A message does to what the boards are given what it says.** -/
theorem process_given (a : App α) (now : Duration) (action : Action α) :
    (a.process now action).2.given = (a.given.1.take Action.tree? action, a.given.2.take Action.metrics? action) := by
  cases action with
  | switchScreen target =>
    simp only [process]
    split
    · rfl
    · cases a.active <;> cases target <;> rfl
  | resize columns rows => exact Prod.ext (a.queues.dashboard.given_resize _) (a.cluster.dashboard.given_resize _)
  | _ => rfl

theorem onEvent_given (a : App α) (now : Duration) (event : Event) : (a.onEvent now event).2.given = a.given := by
  cases event with
  | key key =>
    simp only [onEvent, onKey]
    split
    · split <;> rfl
    · split
      · rfl
      · split
        · exact Prod.ext (a.queues.given_onKey now key) rfl
        · exact Prod.ext rfl (a.cluster.given_onKey key)
  | pointer pointer =>
    simp only [onEvent, onPointer]
    split
    · rfl
    · split
      · exact Prod.ext (a.queues.given_onPointer now pointer) rfl
      · exact Prod.ext rfl (a.cluster.given_onPointer pointer)
  | _ => rfl

theorem draw_given (a : App α) (now : Duration) (columns rows : Nat) :
    (a.draw now columns rows).2.given = a.given := by
  simp only [draw, drawScreen]
  split <;> rfl

/-! ## The order of visits -/

/-- A message for one screen; tells what follows from it after what followed before. -/
def visit (now : Duration) (action : Action α) (before : List (Action α) × App α) :
    ScreenId → List (Action α) × App α
  | .queues =>
    let (follow, queues) := before.2.queues.update now action
    (before.1 ++ follow.toList, { before.2 with queues })
  | .cluster => (before.1, { before.2 with cluster := before.2.cluster.update now action })

/-- A message for both screens, visited in an order. -/
def broadcastIn (order : List ScreenId) (a : App α) (now : Duration) (action : Action α) :
    List (Action α) × App α :=
  order.foldl (visit now action) ([], a)

/-- Takes a message; the screens are visited in an order. -/
def processIn (order : List ScreenId) (a : App α) (now : Duration) (action : Action α) :
    List (Action α) × App α :=
  match action with
  | .resize .. | .queuesLoaded _ | .metricsLoaded _ => a.broadcastIn order now action
  | _ => a.process now action

/-- Visits of both screens can be exchanged. -/
theorem visit_comm (now : Duration) (action : Action α) (before : List (Action α) × App α) (i j : ScreenId) :
    visit now action (visit now action before i) j = visit now action (visit now action before j) i := by
  cases i <;> cases j <;> rfl

/-- The order of visits makes no difference. -/
theorem broadcastIn_eq {order : List ScreenId} (h : order.Perm ScreenId.all) (a : App α) (now : Duration)
    (action : Action α) : a.broadcastIn order now action = a.broadcast now action := by
  rw [broadcastIn, h.foldl_eq' fun i _ j _ before => visit_comm now action before i j]
  rfl

theorem processIn_eq {order : List ScreenId} (h : order.Perm ScreenId.all) (a : App α) (now : Duration)
    (action : Action α) : a.processIn order now action = a.process now action := by
  cases action with
  | resize | queuesLoaded | metricsLoaded => exact a.broadcastIn_eq h now _
  | _ => rfl

/-! ## Runs -/

/-- A message that comes at a time, with the order in which the screens are visited if it is for both. -/
structure Delivery (α : Type) where
  now : Duration
  action : Action α
  order : List ScreenId := ScreenId.all
  complete : order.Perm ScreenId.all := by exact .refl _

/-- Takes a message as it is delivered. -/
def take (a : App α) (delivery : Delivery α) : App α := (a.processIn delivery.order delivery.now delivery.action).2

theorem take_eq (a : App α) (delivery : Delivery α) :
    a.take delivery = (a.process delivery.now delivery.action).2 :=
  congrArg Prod.snd (a.processIn_eq delivery.complete _ _)

/-- What the dashboard is given. -/
inductive Input (α : Type) where
  | event (now : Duration) (event : Event)
  | take (delivery : Delivery α)
  | draw (now : Duration) (columns rows : Nat)

/-- The message that an input is. -/
def Input.action? : Input α → Option (Action α)
  | .take delivery => some delivery.action
  | .event .. | .draw .. => none

/-- The dashboard after an input. -/
def step (a : App α) : Input α → App α
  | .event now event => (a.onEvent now event).2
  | .take delivery => a.take delivery
  | .draw now columns rows => (a.draw now columns rows).2

/-- The dashboard at the start, with its first screen focused. -/
def start (now : Duration) (doubleClick : Nat) : App α := (new now doubleClick).setFocus .first true

theorem step_given (a : App α) (input : Input α) :
    (a.step input).given = (input.action?.elim a.given.1 (a.given.1.take Action.tree?),
      input.action?.elim a.given.2 (a.given.2.take Action.metrics?)) := by
  cases input with
  | event now event => exact a.onEvent_given now event
  | take delivery =>
    rw [step, take_eq]
    exact a.process_given _ _
  | draw now columns rows => exact a.draw_given now columns rows

/-- **What the boards are given, the messages have brought**, in their order. -/
theorem foldl_given (a : App α) (inputs : List (Input α)) :
    (inputs.foldl step a).given = ((inputs.filterMap Input.action?).foldl (Given.take Action.tree?) a.given.1,
      (inputs.filterMap Input.action?).foldl (Given.take Action.metrics?) a.given.2) := by
  induction inputs generalizing a with
  | nil => rfl
  | cons input inputs ih =>
    rw [List.foldl_cons, ih, step_given, List.filterMap_cons]
    cases input <;> rfl

end App

end Terminal

end QueueBoard
