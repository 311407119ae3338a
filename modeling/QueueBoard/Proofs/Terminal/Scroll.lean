import QueueBoard.Proofs.Basic
import QueueBoard.Proofs.Scalar.Rational
import QueueBoard.Terminal.Screen.Cluster
import QueueBoard.Terminal.Screen.Queues
/-!
# Scrolling

In exact arithmetic. Scrolling keeps the viewport within the scene (`Viewport.scrollBy_within`), and
nothing but scrolling moves it, a load of queues apart, which takes it to the top. So it is within the
scene as that was when it was last scrolled (`run_scroll`). A scene that shrinks afterwards leaves the
viewport behind (`scroll_past_bottom`).
-/

namespace QueueBoard.Terminal

/-- What a screen is given. -/
inductive Input (α : Type) where
  | key (key : Key)
  | pointer (pointer : Pointer)
  | action (action : Action α)
  /-- A frame, drawn into an area. -/
  | draw (area : Area) (cells : Cells)

section

variable {α : Type} [Scalar α]

/-- Whether an input scrolls. -/
def Input.scrolls : Input α → Bool
  | .key k => (Viewport.scrollStep? (α := α) k {}).isSome
  | .pointer p => p.kind = .scrollDown ∨ p.kind = .scrollUp
  | .action _ | .draw .. => false

/-- Whether an input scrolls or goes to the top of another tree. -/
def Input.scrollsOrLoads : Input α → Bool
  | .action (.queuesLoaded _) => true
  | input => input.scrolls

theorem Viewport.isSome_scrollStep? (key : Key) (area area' : Area) :
    (scrollStep? (α := α) key area).isSome = (scrollStep? (α := α) key area').isSome := by
  unfold scrollStep?
  split <;> rfl

variable [Trig α]

namespace QueuesScreen

/-- The screen after an input at a time. -/
def step (s : QueuesScreen α) : Duration × Input α → QueuesScreen α
  | (now, .key key) => s.onKey now key
  | (now, .pointer pointer) => s.onPointer now pointer
  | (now, .action action) => (s.update now action).2
  | (now, .draw area cells) => (s.draw now area cells).2

/-- The screen after some inputs from the start on. -/
def run (start : Duration) (window : Nat) (inputs : List (Duration × Input α)) : QueuesScreen α :=
  inputs.foldl step (new start window)

end QueuesScreen

namespace ClusterScreen

/-- The screen after an input at a time. -/
def step (s : ClusterScreen α) : Duration × Input α → ClusterScreen α
  | (_, .key key) => s.onKey key
  | (_, .pointer pointer) => s.onPointer pointer
  | (now, .action action) => s.update now action
  | (now, .draw area cells) => (s.draw now area cells).2

/-- The screen after some inputs from the start on. -/
def run (start : Duration) (inputs : List (Duration × Input α)) : ClusterScreen α :=
  inputs.foldl step (new start)

end ClusterScreen

end

/-! ## The viewport -/

namespace Viewport

/-- How far a scene of a height can be scrolled in an area. -/
def room (sceneHeight : ℚ) (area : Area) : ℚ := max (sceneHeight - visibleHeight area) 0

/-- The viewport is within a scene. -/
def Within (v : Viewport ℚ) (room : ℚ) : Prop := 0 ≤ v.scroll ∧ v.scroll ≤ room

theorem room_nonneg (sceneHeight : ℚ) (area : Area) : 0 ≤ room sceneHeight area := le_max_right _ _

theorem top_within (sceneHeight : ℚ) (area : Area) : top.Within (room sceneHeight area) :=
  ⟨le_refl 0, room_nonneg sceneHeight area⟩

theorem scrollBy_within (v : Viewport ℚ) (delta sceneHeight : ℚ) (area : Area) :
    (v.scrollBy delta sceneHeight area).Within (room sceneHeight area) :=
  Scalar.clamp_mem (room_nonneg sceneHeight area)

theorem scrollKey_within (v : Viewport ℚ) {key : Key} (h : (Input.key (α := ℚ) key).scrolls = true)
    (sceneHeight : ℚ) (area : Area) :
    ∃ w, v.scrollKey key sceneHeight area = some w ∧ w.Within (room sceneHeight area) := by
  have hsome : (scrollStep? (α := ℚ) key area).isSome = true := by
    rw [isSome_scrollStep? key area {}]
    exact h
  obtain ⟨delta, hdelta⟩ := Option.isSome_iff_exists.1 hsome
  exact ⟨v.scrollBy delta sceneHeight area, by rw [scrollKey, hdelta]; rfl, v.scrollBy_within _ _ _⟩

theorem scrollKey_eq_none (v : Viewport ℚ) {key : Key} (h : (Input.key (α := ℚ) key).scrolls = false)
    (sceneHeight : ℚ) (area : Area) : v.scrollKey key sceneHeight area = none := by
  have hnone : (scrollStep? (α := ℚ) key area).isSome = false := by
    rw [isSome_scrollStep? key area {}]
    exact h
  rw [scrollKey, Option.not_isSome_iff_eq_none.1 (ne_true_of_eq_false hnone), Option.map_none]

end Viewport

/-- If scrolling keeps a viewport within the scene and nothing else moves it, it is where the last
scrolling left it. -/
theorem within_since_scroll {σ ι : Type} (step : σ → ι → σ) (start : σ) (scrolls : ι → Bool)
    (viewport : σ → Viewport ℚ) (room : σ → ℚ) (hstart : (viewport start).Within (room start))
    (hscroll : ∀ s i, scrolls i = true → (viewport (step s i)).Within (room (step s i)))
    (hrest : ∀ s i, scrolls i = false → viewport (step s i) = viewport s) (inputs : List ι) :
    let before := (upToReset scrolls inputs).foldl step start
    let now := inputs.foldl step start
    (viewport now).Within (room before) ∧ (room before ≤ room now → (viewport now).Within (room now)) := by
  intro before now
  obtain ⟨hwithin, hkept⟩ := since_reset step start scrolls (fun s => (viewport s).Within (room s))
    (fun s t => viewport t = viewport s) hstart (fun _ i h => hscroll _ i h) (fun _ => rfl)
    (fun _ t i h hkept => (hrest t i h).trans hkept) inputs
  rw [← hkept] at hwithin
  exact ⟨hwithin, fun hroom => ⟨hwithin.1, hwithin.2.trans hroom⟩⟩

section

variable [Trig ℚ]

/-! ## The queue screen -/

namespace QueuesScreen

/-- How far the present scene can be scrolled. -/
def room (s : QueuesScreen ℚ) : ℚ := Viewport.room s.dashboard.height s.canvas

theorem selectNeighbor_viewport (s : QueuesScreen ℚ) (offset : Int) :
    (s.selectNeighbor offset).viewport = s.viewport := by
  unfold selectNeighbor
  split <;> rfl

theorem toggleSelected_viewport (s : QueuesScreen ℚ) : s.toggleSelected.viewport = s.viewport := by
  unfold toggleSelected
  split <;> rfl

theorem hover_viewport (s : QueuesScreen ℚ) (point : Option (Point ℚ)) :
    (s.hover point).viewport = s.viewport := by
  unfold hover
  split <;> rfl

theorem command_viewport {code : KeyCode} {command : QueuesScreen ℚ → QueuesScreen ℚ}
    (h : command? code = some command) (s : QueuesScreen ℚ) : (command s).viewport = s.viewport := by
  unfold command? at h
  split at h <;> cases h <;> first | exact s.selectNeighbor_viewport _ | exact s.toggleSelected_viewport

/-- After scrolling, and after a load, the viewport is within the present scene. -/
theorem step_within (s : QueuesScreen ℚ) (now : Duration) {input : Input ℚ}
    (h : input.scrollsOrLoads = true) :
    (s.step (now, input)).viewport.Within (s.step (now, input)).room := by
  cases input with
  | key k =>
    obtain ⟨viewport, hviewport, hwithin⟩ := s.viewport.scrollKey_within h s.dashboard.height s.canvas
    simp only [step, onKey, hviewport]
    exact hwithin
  | pointer p =>
    have hkind : p.kind = .scrollDown ∨ p.kind = .scrollUp := of_decide_eq_true h
    rcases hkind with hkind | hkind <;> simp only [step, onPointer, hkind] <;>
      exact s.viewport.scrollBy_within _ _ _
  | action action =>
    cases action with
    | queuesLoaded records => exact Viewport.top_within _ _
    | _ => cases h
  | draw area cells => cases h

/-- No other input moves the viewport. -/
theorem step_viewport (s : QueuesScreen ℚ) (now : Duration) {input : Input ℚ}
    (h : input.scrollsOrLoads = false) : (s.step (now, input)).viewport = s.viewport := by
  cases input with
  | key k =>
    simp only [step, onKey, s.viewport.scrollKey_eq_none h s.dashboard.height s.canvas]
    split
    · rename_i command hcommand
      exact command_viewport hcommand s
    · rfl
  | pointer p =>
    have hkind : p.kind ≠ .scrollDown ∧ p.kind ≠ .scrollUp := not_or.1 (of_decide_eq_false h)
    simp only [step, onPointer]
    split
    · exact s.hover_viewport _
    · exact s.hover_viewport _
    · split <;> rfl
    · rename_i hdown
      exact absurd hdown hkind.1
    · rename_i hup
      exact absurd hup hkind.2
    all_goals rfl
  | action action =>
    cases action with
    | queuesLoaded records => cases h
    | _ => rfl
  | draw area cells => rfl

end QueuesScreen

/-! ## The cluster screen -/

namespace ClusterScreen

/-- How far the present scene can be scrolled. -/
def room (s : ClusterScreen ℚ) : ℚ := Viewport.room s.dashboard.height s.canvas

theorem step_within (s : ClusterScreen ℚ) (now : Duration) {input : Input ℚ}
    (h : input.scrolls = true) :
    (s.step (now, input)).viewport.Within (s.step (now, input)).room := by
  cases input with
  | key k =>
    obtain ⟨viewport, hviewport, hwithin⟩ := s.viewport.scrollKey_within h s.dashboard.height s.canvas
    simp only [step, onKey, hviewport]
    exact hwithin
  | pointer p =>
    have hkind : p.kind = .scrollDown ∨ p.kind = .scrollUp := of_decide_eq_true h
    rcases hkind with hkind | hkind <;> simp only [step, onPointer, hkind] <;>
      exact s.viewport.scrollBy_within _ _ _
  | action action => cases h
  | draw area cells => cases h

/-- No other input moves the viewport, a load neither. -/
theorem step_viewport (s : ClusterScreen ℚ) (now : Duration) {input : Input ℚ}
    (h : input.scrolls = false) : (s.step (now, input)).viewport = s.viewport := by
  cases input with
  | key k =>
    simp only [step, onKey, s.viewport.scrollKey_eq_none h s.dashboard.height s.canvas]
  | pointer p =>
    have hkind : p.kind ≠ .scrollDown ∧ p.kind ≠ .scrollUp := not_or.1 (of_decide_eq_false h)
    simp only [step, onPointer]
    split
    · split <;> rfl
    · rename_i hdown
      exact absurd hdown hkind.1
    · rename_i hup
      exact absurd hup hkind.2
    all_goals rfl
  | action action => cases action <;> rfl
  | draw area cells => rfl

end ClusterScreen

/-! ## Both screens -/

/-- **Where the viewport is.** After any inputs it is within the scene as that was after the last one that
scrolled, or loaded queues, and within the present scene if there is no less room for it now. -/
theorem run_scroll (start : Duration) (window : Nat) (inputs : List (Duration × Input ℚ)) :
    (let before := QueuesScreen.run start window (upToReset (fun i => i.2.scrollsOrLoads) inputs)
      let now := QueuesScreen.run start window inputs
      now.viewport.Within before.room ∧ (before.room ≤ now.room → now.viewport.Within now.room)) ∧
    (let before := ClusterScreen.run start (upToReset (fun i => i.2.scrolls) inputs)
      let now := ClusterScreen.run start inputs
      now.viewport.Within before.room ∧ (before.room ≤ now.room → now.viewport.Within now.room)) := by
  constructor
  · exact within_since_scroll QueuesScreen.step _ _ (·.viewport) QueuesScreen.room
      (Viewport.top_within _ _) (fun s i h => s.step_within i.1 h) (fun s i h => s.step_viewport i.1 h) inputs
  · exact within_since_scroll ClusterScreen.step _ _ (·.viewport) ClusterScreen.room
      (Viewport.top_within _ _) (fun s i h => s.step_within i.1 h) (fun s i h => s.step_viewport i.1 h) inputs

end

/-- Scrolled to the bottom, then left with less to show: a selection with fewer charts, and a terminal wide
enough for more donuts side by side. -/
theorem scroll_past_bottom :
    letI : Trig ℚ := .rational
    let root : QueueRecord ℚ := { QueueRecord.named "root" with children := ["a", "b"] }
    let frame : Input ℚ := .draw { width := 80, height := 24 } (.blank 80 24)
    let toBottom := frame :: List.replicate 8 (.key ⟨.pageDown, {}⟩)
    let atStart := fun inputs : List (Input ℚ) => inputs.map fun input => ((⟨0⟩ : Duration), input)
    let queues := QueuesScreen.run ⟨0⟩ 400 (atStart
      (.action (.queuesLoaded [root, .named "a", .named "b"]) :: toBottom ++ [.key ⟨.char 'j', {}⟩]))
    let cluster := ClusterScreen.run ⟨0⟩ (atStart
      (.action (.metricsLoaded .zero) :: toBottom ++ [.action (.resize 202 24)]))
    (queues.viewport.scroll = 684 ∧ queues.room = 24 ∧ ¬ queues.viewport.Within queues.room) ∧
      cluster.viewport.scroll = 1344 ∧ cluster.room = 864 ∧ ¬ cluster.viewport.Within cluster.room := by
  let trig : Trig ℚ := .rational
  intro root frame toBottom atStart queues cluster
  have hqueues : queues.viewport.scroll = 684 ∧ queues.room = 24 := by decide +kernel
  have hcluster : cluster.viewport.scroll = 1344 ∧ cluster.room = 864 := by decide +kernel
  refine ⟨⟨hqueues.1, hqueues.2, fun h => ?_⟩, hcluster.1, hcluster.2, fun h => ?_⟩
  · have hpast := h.2
    rw [hqueues.1, hqueues.2] at hpast
    exact absurd hpast (by norm_num)
  · have hpast := h.2
    rw [hcluster.1, hcluster.2] at hpast
    exact absurd hpast (by norm_num)

end QueueBoard.Terminal
