import QueueBoard.Proofs.Scalar.Whole
import QueueBoard.Proofs.Terminal.Inputs
/-!
# Sizes and snapshots in any order

At the start the size of the terminal and the first snapshots come in any order, and both screens are visited in
any order for each. A load and a resize of one board can be exchanged, but for the pictures drawn on the way,
which are counted and restart entrances. So two orders lead to the same dashboard up to counts and clocks
(`foldl_take_timeless`), and the boards are as wide as the terminal was said to be last (`run_width`).
-/

namespace QueueBoard

/-! ## The boards -/

namespace QueueDashboard

variable {α : Type}

/-- The board without its count of pictures. -/
def uncounted (d : QueueDashboard α) : QueueDashboard α := { d with generation := 0 }

variable [Scalar α] [Trig α]

theorem uncounted_resize (d : QueueDashboard α) (width : α) :
    (d.uncounted.resize width).uncounted = (d.resize width).uncounted := by
  unfold resize
  split <;> split <;> first | rfl | contradiction

/-- A load and a resize can be exchanged. -/
theorem resize_load (d : QueueDashboard α) (width : α) (records : List (QueueRecord α)) :
    ((d.load records).resize width).uncounted = ((d.resize width).load records).uncounted := by
  unfold resize
  split <;> split <;> first | rfl | contradiction

end QueueDashboard

namespace ClusterDashboard

variable {α : Type}

/-- The board without its count of pictures. -/
def uncounted (d : ClusterDashboard α) : ClusterDashboard α := { d with generation := 0 }

variable [Scalar α] [Trig α]

theorem uncounted_resize (d : ClusterDashboard α) (width : α) :
    (d.uncounted.resize width).uncounted = (d.resize width).uncounted := by
  unfold resize
  split <;> split <;> first | rfl | contradiction

/-- A load and a resize can be exchanged. -/
theorem resize_load (d : ClusterDashboard α) (width : α) (metrics : ClusterMetrics α) :
    ((d.load metrics).resize width).uncounted = ((d.resize width).load metrics).uncounted := by
  unfold resize
  split <;> split <;> first | rfl | contradiction

end ClusterDashboard

namespace Terminal

variable {α : Type}

/-- The screen without counts and times. -/
def QueuesScreen.timeless (s : QueuesScreen α) : QueuesScreen α :=
  { s with dashboard := s.dashboard.uncounted, clock := ⟨⟨0⟩, 0⟩ }

/-- The screen without counts and times. -/
def ClusterScreen.timeless (s : ClusterScreen α) : ClusterScreen α :=
  { s with dashboard := s.dashboard.uncounted, clock := ⟨⟨0⟩, 0⟩ }

variable [Scalar α] [Trig α]

/-! ## The screens -/

namespace QueuesScreen

theorem timeless_resize (s : QueuesScreen α) (now : Duration) (columns : Nat) :
    (s.resize now columns).timeless = (s.timeless.resize ⟨0⟩ columns).timeless :=
  congrArg (fun dashboard => { s.timeless with dashboard }) (s.dashboard.uncounted_resize _).symm

theorem resize_load (s : QueuesScreen α) (now : Duration) (columns : Nat) (records : List (QueueRecord α)) :
    ((s.load now records).resize now columns).timeless = ((s.resize now columns).load now records).timeless :=
  congrArg (fun dashboard => { s.timeless with dashboard, viewport := .top, loaded := true })
    (s.dashboard.resize_load _ records)

end QueuesScreen

namespace ClusterScreen

theorem timeless_update (s : ClusterScreen α) (now : Duration) (action : Action α) :
    (s.update now action).timeless = (s.timeless.update ⟨0⟩ action).timeless := by
  cases action with
  | resize columns rows =>
    exact congrArg (fun dashboard => { s.timeless with dashboard }) (s.dashboard.uncounted_resize _).symm
  | _ => rfl

theorem resize_load (s : ClusterScreen α) (now : Duration) (columns rows : Nat) (metrics : ClusterMetrics α) :
    ((s.update now (.metricsLoaded metrics)).update now (.resize columns rows)).timeless =
      ((s.update now (.resize columns rows)).update now (.metricsLoaded metrics)).timeless :=
  congrArg (fun dashboard => { s.timeless with dashboard, loaded := true }) (s.dashboard.resize_load _ metrics)

end ClusterScreen

/-! ## The dashboard -/

namespace App

omit [Scalar α] [Trig α] in
/-- The dashboard without counts and times. -/
def timeless (a : App α) : App α := { a with queues := a.queues.timeless, cluster := a.cluster.timeless }

omit [Scalar α] [Trig α] in
/-- The dashboard with other states of its screens. -/
def withScreens (a : App α) (queues : QueuesScreen α) (cluster : ClusterScreen α) : App α :=
  { a with queues, cluster }

/-- The dashboard after a message, without counts and times. -/
def settle (a : App α) (action : Action α) : App α := (a.process ⟨0⟩ action).2.timeless

/-- What a message does depends on counts and times for these alone. -/
theorem timeless_process (a : App α) (now : Duration) (action : Action α) :
    (a.process now action).2.timeless = a.timeless.settle action := by
  cases action with
  | switchScreen target =>
    have hactive : a.timeless.active = a.active := rfl
    simp only [settle, process, hactive]
    split
    · rfl
    · cases a.active <;> cases target <;> rfl
  | resize columns rows =>
    exact congrArg₂ a.timeless.withScreens (a.queues.timeless_resize now columns)
      (a.cluster.timeless_update now (.resize columns rows))
  | _ => rfl

theorem foldl_take_timeless (a : App α) (deliveries : List (Delivery α)) :
    (deliveries.foldl take a).timeless = (deliveries.map Delivery.action).foldl settle a.timeless := by
  induction deliveries generalizing a with
  | nil => rfl
  | cons delivery deliveries ih => rw [List.foldl_cons, ih, take_eq, timeless_process]; rfl

theorem settle_settle (a : App α) (first second : Action α) :
    (a.settle first).settle second = ((a.process ⟨0⟩ first).2.process ⟨0⟩ second).2.timeless :=
  (timeless_process _ _ _).symm

/-- A size, queues and metrics, one of each. -/
def sizeAndData (columns rows : Nat) (records : List (QueueRecord α)) (metrics : ClusterMetrics α) :
    List (Action α) :=
  [.resize columns rows, .queuesLoaded records, .metricsLoaded metrics]

/-- Two of the three messages can be exchanged. -/
theorem settle_comm {columns rows : Nat} {records : List (QueueRecord α)} {metrics : ClusterMetrics α} :
    ∀ first ∈ sizeAndData columns rows records metrics, ∀ second ∈ sizeAndData columns rows records metrics,
      ∀ a : App α, (a.settle first).settle second = (a.settle second).settle first := by
  have hqueues : ∀ a : App α, (a.settle (.queuesLoaded records)).settle (.resize columns rows) =
      (a.settle (.resize columns rows)).settle (.queuesLoaded records) := by
    intro a
    rw [settle_settle, settle_settle]
    exact congrArg (a.timeless.withScreens · (a.cluster.update ⟨0⟩ (.resize columns rows)).timeless)
      (a.queues.resize_load ⟨0⟩ columns records)
  have hmetrics : ∀ a : App α, (a.settle (.metricsLoaded metrics)).settle (.resize columns rows) =
      (a.settle (.resize columns rows)).settle (.metricsLoaded metrics) := by
    intro a
    rw [settle_settle, settle_settle]
    exact congrArg (a.timeless.withScreens (a.queues.resize ⟨0⟩ columns).timeless ·)
      (a.cluster.resize_load ⟨0⟩ columns rows metrics)
  have hboth : ∀ a : App α, (a.settle (.queuesLoaded records)).settle (.metricsLoaded metrics) =
      (a.settle (.metricsLoaded metrics)).settle (.queuesLoaded records) := fun _ => rfl
  simp only [sizeAndData, List.mem_cons, List.not_mem_nil, or_false]
  rintro first (rfl | rfl | rfl) second (rfl | rfl | rfl) a
  · rfl
  · exact (hqueues a).symm
  · exact (hmetrics a).symm
  · exact hqueues a
  · rfl
  · exact hboth a
  · exact hmetrics a
  · exact (hboth a).symm
  · rfl

/-- **Sizes and snapshots commute**, but for counts and times: deliveries of the same messages lead to the same
dashboard from any other, in whatever order they come and the screens are visited. -/
theorem timeless_foldl_take {columns rows : Nat} {records : List (QueueRecord α)} {metrics : ClusterMetrics α}
    {deliveries deliveries' : List (Delivery α)}
    (h : (deliveries.map Delivery.action).Perm (sizeAndData columns rows records metrics))
    (h' : (deliveries'.map Delivery.action).Perm (sizeAndData columns rows records metrics)) (a : App α) :
    (deliveries.foldl take a).timeless = (deliveries'.foldl take a).timeless := by
  rw [foldl_take_timeless, foldl_take_timeless]
  exact (h.foldl_eq' fun first hfirst second hsecond =>
    settle_comm first (h.mem_iff.1 hfirst) second (h.mem_iff.1 hsecond)) _ |>.trans
      (h'.symm.foldl_eq' settle_comm _)

end App

/-! ## Widths -/

open Floating in
/-- The width of a scene is a whole number, counted without rounding. -/
theorem counts_canvasWidth {columns : Nat} (h : columns < 2 ^ 50) :
    Counts (canvasWidth columns) .positive ((columns - 2) * 8) :=
  (counts_ofNat (by omega)).mul (counts_ofNat (show 8 < 2 ^ 53 by decide)) (by omega)

/-- The widths of two terminals can be told apart, or are the same. -/
theorem nextWidth_canvasWidth {columns told : Nat} (h : columns < 2 ^ 50) (htold : told < 2 ^ 50) :
    nextWidth (canvasWidth columns) (canvasWidth told) = (canvasWidth told : Float) := by
  unfold nextWidth
  split
  · rfl
  · rename_i hsame
    rw [Floating.epsilon_lt_abs_sub_iff (counts_canvasWidth htold) (counts_canvasWidth h), not_not] at hsame
    have hcolumns : columns - 2 = told - 2 := by omega
    rw [canvasWidth, hcolumns]
    rfl

/-- A board that follows the columns told is as wide as the last ones make it. -/
theorem foldl_nextWidth {columns : Nat} (h : columns < 2 ^ 50) {told : List Nat} (htold : ∀ c ∈ told, c < 2 ^ 50) :
    told.foldl (fun width c => nextWidth width (canvasWidth c)) (canvasWidth columns) =
      (canvasWidth (told.getLastD columns) : Float) := by
  induction told generalizing columns with
  | nil => rfl
  | cons c told ih =>
    have hc := htold c List.mem_cons_self
    rw [List.foldl_cons, nextWidth_canvasWidth h hc, ih hc fun c hmem => htold c (List.mem_cons_of_mem _ hmem),
      List.getLastD_cons]

namespace App

/-- The columns that an input tells. -/
def Input.columns? (input : Input α) : Option Nat := input.action?.bind Action.columns?

/-- Both boards are as wide as the columns make them that were told last, or as at the start. -/
theorem foldl_step_width (now : Duration) (doubleClick : Nat) {inputs : List (Input Float)}
    (htold : ∀ told ∈ inputs.filterMap Input.columns?, told < 2 ^ 50) :
    let a := inputs.foldl step (start now doubleClick)
    a.queues.dashboard.width = canvasWidth ((inputs.filterMap Input.columns?).getLastD 80) ∧
      a.cluster.dashboard.width = canvasWidth ((inputs.filterMap Input.columns?).getLastD 80) := by
  intro a
  have hcolumns : (inputs.filterMap Input.action?).filterMap Action.columns? = inputs.filterMap Input.columns? :=
    List.filterMap_filterMap
  have hlast := foldl_nextWidth (show 80 < 2 ^ 50 by decide) htold
  rw [← hcolumns] at hlast ⊢
  have hgiven := foldl_given (start now doubleClick) inputs
  constructor
  · rw [← hlast, show a.queues.dashboard.width = a.given.1.width from rfl, hgiven]
    exact Given.foldl_take_width _ _ _
  · rw [← hlast, show a.cluster.dashboard.width = a.given.2.width from rfl, hgiven]
    exact Given.foldl_take_width _ _ _

/-- **Sizes and snapshots come in any order**, on every dashboard that inputs lead to: up to counts and times the
order of the three messages and of the visits to the screens makes no difference. And once a size was told, in
numbers of 16 bits, both boards are as wide as the last one makes them. -/
theorem run_sizes_and_snapshots (now : Duration) (doubleClick : Nat) (inputs : List (Input Float)) :
    let a := inputs.foldl step (start now doubleClick)
    (∀ (columns rows : Nat) (records : List (QueueRecord Float)) (metrics : ClusterMetrics Float)
      (deliveries deliveries' : List (Delivery Float)),
      (deliveries.map Delivery.action).Perm (sizeAndData columns rows records metrics) →
      (deliveries'.map Delivery.action).Perm (sizeAndData columns rows records metrics) →
      (deliveries.foldl take a).timeless = (deliveries'.foldl take a).timeless) ∧
    ∀ columns : Nat, (∀ told ∈ inputs.filterMap Input.columns?, told < 2 ^ 16) →
      (inputs.filterMap Input.columns?).getLast? = some columns →
      a.queues.dashboard.width = canvasWidth columns ∧ a.cluster.dashboard.width = canvasWidth columns := by
  intro a
  refine ⟨fun columns rows records metrics _ _ h h' => timeless_foldl_take h h' a, fun columns htold hlast => ?_⟩
  have hwidth := foldl_step_width now doubleClick fun told hmem => (htold told hmem).trans (by decide)
  rwa [List.getLastD_eq_getLast?, hlast] at hwidth

/-- On a dashboard of 100 columns, first the size and last the counters, or the other way round with the cluster
screen visited first. -/
theorem run_sizes_and_snapshots_reversed :
    let inputs : List (Input Float) := [.take { now := ⟨1⟩, action := .resize 100 30 }]
    let a := inputs.foldl step (start ⟨0⟩ 400)
    let deliveries : List (Delivery Float) := [{ now := ⟨2⟩, action := .resize 120 40 },
      { now := ⟨3⟩, action := .queuesLoaded [] }, { now := ⟨4⟩, action := .metricsLoaded .zero }]
    let deliveries' : List (Delivery Float) := [
      { now := ⟨5⟩, action := .metricsLoaded .zero, order := [.cluster, .queues], complete := by decide },
      { now := ⟨6⟩, action := .queuesLoaded [], order := [.cluster, .queues], complete := by decide },
      { now := ⟨7⟩, action := .resize 120 40, order := [.cluster, .queues], complete := by decide }]
    (deliveries.foldl take a).timeless = (deliveries'.foldl take a).timeless ∧
      a.queues.dashboard.width = canvasWidth 100 ∧ a.cluster.dashboard.width = canvasWidth 100 := by
  intro inputs a deliveries deliveries'
  obtain ⟨horder, hwidth⟩ := run_sizes_and_snapshots ⟨0⟩ 400 inputs
  have hreversed : (deliveries'.map Delivery.action).Perm (sizeAndData 120 40 [] .zero) :=
    List.reverse_perm (sizeAndData 120 40 [] .zero)
  have htold : inputs.filterMap Input.columns? = [100] := rfl
  refine ⟨horder 120 40 [] .zero deliveries deliveries' (.refl _) hreversed, hwidth 100 (fun told hmem => ?_) ?_⟩
  · rw [htold, List.mem_singleton] at hmem
    omega
  · rw [htold]
    rfl

end App

end Terminal

end QueueBoard
