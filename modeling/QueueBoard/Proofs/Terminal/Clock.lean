import QueueBoard.Proofs.Dashboard.Generation
import QueueBoard.Proofs.Terminal.Scroll
/-!
# Entrances and redraws

A screen looks after its clock at the end of most calls and skips it in others. The calls that skip it draw
nothing (`QueuesScreen.step_clock`, `ClusterScreen.step_clock`). So once the first size or snapshot has come, the
clock tells the generation of the present picture, and it starts over in a call just if the call drew another
one (`run_clocks`).
-/

namespace QueueBoard.Terminal

namespace SceneClock

variable {c : SceneClock} {now : Duration} {generation before : Nat}

@[simp] theorem generation_sync : (c.sync now generation).generation = generation := by
  unfold sync
  split
  · rename_i h
    exact h.symm
  · rfl

/-- A clock that tells the generation before goes on if that is still the present one, and starts over
otherwise. -/
theorem drawnAt_sync (h : c.generation = before) :
    (c.sync now generation).drawnAt = if generation = before then c.drawnAt else now := by
  subst h
  unfold sync
  split <;> rfl

end SceneClock

/-- How a clock gets through a call at a time, in which the generation may change. -/
structure ClockFollows (now : Duration) (clock clock' : SceneClock) (generation generation' : Nat) : Prop where
  tells : clock'.generation = generation'
  /-- The clock starts over if there is another picture, and only then. -/
  drawnAt : clock'.drawnAt = if generation' = generation then clock.drawnAt else now

/-- What a call does to the clock: it takes the present generation, or leaves both alone. -/
def ClockKeeps (now : Duration) (clock clock' : SceneClock) (generation generation' : Nat) : Prop :=
  clock' = clock.sync now generation' ∨ clock' = clock ∧ generation' = generation

section

variable {now : Duration} {clock clock' : SceneClock} {generation generation' : Nat}

theorem ClockKeeps.follows (h : ClockKeeps now clock clock' generation generation')
    (hclock : clock.generation = generation) :
    ClockFollows now clock clock' generation generation' := by
  rcases h with rfl | ⟨rfl, rfl⟩
  · exact ⟨SceneClock.generation_sync, SceneClock.drawnAt_sync hclock⟩
  · exact ⟨hclock, (if_pos rfl).symm⟩

/-- While the picture is the same the clock goes on. -/
theorem ClockFollows.same (h : ClockFollows now clock clock' generation generation')
    (hclock : clock.generation = generation) (hsame : generation' = generation) : clock' = clock := by
  have hdrawn : clock'.drawnAt = clock.drawnAt := h.drawnAt.trans (if_pos hsame)
  have htells : clock'.generation = clock.generation := h.tells.trans (hsame.trans hclock.symm)
  cases clock
  cases clock'
  cases hdrawn
  cases htells
  rfl

theorem ClockFollows.restarts (h : ClockFollows now clock clock' generation generation')
    (hne : generation' ≠ generation) : clock'.drawnAt = now := h.drawnAt.trans (if_neg hne)

/-- If some inputs make the clock take the generation and no other parts the two, they agree once one of those
has come. -/
theorem agree_since_told {σ ι : Type} (step : σ → Duration × ι → σ) (start : σ) (told : ι → Bool)
    (clock : σ → SceneClock) (generation : σ → Nat)
    (htold : ∀ s now i, told i = true → (clock (step s (now, i))).generation = generation (step s (now, i)))
    (hstep : ∀ s now i,
      ClockKeeps now (clock s) (clock (step s (now, i))) (generation s) (generation (step s (now, i))))
    {inputs : List (Duration × ι)} (h : inputs.any (fun i => told i.2) = true) :
    (clock (inputs.foldl step start)).generation = generation (inputs.foldl step start) := by
  induction inputs using List.reverseRecOn with
  | nil => cases h
  | append_singleton inputs i ih =>
    obtain ⟨now, i⟩ := i
    rw [List.foldl_concat]
    cases hlast : told i with
    | true => exact htold _ now i hlast
    | false =>
      rw [List.any_append, Bool.or_eq_true] at h
      have hbefore := h.resolve_right (by simp [hlast])
      exact ((hstep _ now i).follows (ih hbefore)).tells

end

section

variable {α : Type}

/-- Whether an input is a message that the queue screen draws for. -/
def Input.forQueues : Input α → Bool
  | .action (.resize ..) | .action (.queuesLoaded _) => true
  | _ => false

/-- Whether an input is a message that the cluster screen draws for. -/
def Input.forCluster : Input α → Bool
  | .action (.resize ..) | .action (.metricsLoaded _) => true
  | _ => false

variable [Scalar α]

/-- Whether an input only looks around: it scrolls, or moves the pointer. -/
def Input.looks : Input α → Bool
  | .pointer p => p.kind = .moved ∨ p.kind = .dragged ∨ p.kind = .scrollDown ∨ p.kind = .scrollUp
  | input => input.scrolls

/-- A key that scrolls does nothing else. -/
theorem Viewport.exists_scrollKey (v : Viewport α) {key : Key} (h : (Input.key (α := α) key).looks = true)
    (sceneHeight : α) (area : Area) : ∃ w, v.scrollKey key sceneHeight area = some w := by
  have hsome : (scrollStep? (α := α) key area).isSome = true := by
    rw [isSome_scrollStep? key area {}]
    exact h
  obtain ⟨delta, hdelta⟩ := Option.isSome_iff_exists.1 hsome
  exact ⟨v.scrollBy delta sceneHeight area, by rw [scrollKey, hdelta]; rfl⟩

variable [Trig α]

/-! ## The queue screen -/

namespace QueuesScreen

theorem clock_command {code : KeyCode} {command : QueuesScreen α → QueuesScreen α}
    (h : command? code = some command) (s : QueuesScreen α) : (command s).clock = s.clock := by
  unfold command? at h
  split at h <;> cases h
  all_goals
    simp only [selectNeighbor, toggleSelected]
    split <;> rfl

theorem clock_hover (s : QueuesScreen α) (point : Option (Point α)) : (s.hover point).clock = s.clock := by
  cases point <;> rfl

/-- Calls that skip the clock draw nothing. -/
theorem step_clock (s : QueuesScreen α) (now : Duration) (input : Input α) :
    let t := s.step (now, input)
    ClockKeeps now s.clock t.clock s.dashboard.generation t.dashboard.generation := by
  have skipped : ClockKeeps now s.clock s.clock s.dashboard.generation s.dashboard.generation := Or.inr ⟨rfl, rfl⟩
  intro t
  cases input with
  | key k =>
    simp only [t, step, onKey]
    split
    · exact skipped
    · split
      · rename_i command hcommand
        refine Or.inl ?_
        simp only [sync, clock_command hcommand s]
      · exact skipped
  | pointer p =>
    simp only [t, step, onPointer]
    split
    · exact Or.inl (by simp only [sync, clock_hover])
    · exact Or.inl (by simp only [sync, clock_hover])
    · split
      · exact Or.inl rfl
      · exact skipped
    all_goals exact Or.inl rfl
  | action action =>
    cases action with
    | queuesLoaded records => exact Or.inl rfl
    | resize columns rows => exact Or.inl rfl
    | _ => exact skipped
  | draw area cells => exact skipped

theorem generation_hover (s : QueuesScreen α) (point : Option (Point α)) :
    (s.hover point).dashboard.generation = s.dashboard.generation := by
  cases point with
  | some p => exact s.dashboard.generation_pointerMoved p
  | none => exact s.dashboard.generation_pointerLeft

/-- Looking around draws nothing. -/
theorem generation_of_looks (s : QueuesScreen α) (now : Duration) {input : Input α} (h : input.looks = true) :
    (s.step (now, input)).dashboard.generation = s.dashboard.generation := by
  cases input with
  | key k =>
    obtain ⟨viewport, hviewport⟩ := s.viewport.exists_scrollKey h s.dashboard.height s.canvas
    simp only [step, onKey, hviewport]
  | pointer p =>
    have hkind : p.kind = .moved ∨ p.kind = .dragged ∨ p.kind = .scrollDown ∨ p.kind = .scrollUp :=
      of_decide_eq_true h
    rcases hkind with hkind | hkind | hkind | hkind <;> simp only [step, onPointer, hkind]
    · exact s.generation_hover _
    · exact s.generation_hover _
    all_goals rfl
  | action action => cases h
  | draw area cells => cases h

theorem tells_of_forQueues (s : QueuesScreen α) (now : Duration) {input : Input α} (h : input.forQueues = true) :
    (s.step (now, input)).clock.generation = (s.step (now, input)).dashboard.generation := by
  unfold Input.forQueues at h
  split at h
  · exact SceneClock.generation_sync
  · exact SceneClock.generation_sync
  · cases h

end QueuesScreen

/-! ## The cluster screen -/

namespace ClusterScreen

/-- Calls that skip the clock draw nothing. -/
theorem step_clock (s : ClusterScreen α) (now : Duration) (input : Input α) :
    let t := s.step (now, input)
    ClockKeeps now s.clock t.clock s.dashboard.generation t.dashboard.generation := by
  intro t
  cases input with
  | key k =>
    simp only [t, step, onKey]
    split <;> exact Or.inr ⟨rfl, rfl⟩
  | pointer p =>
    simp only [t, step, onPointer]
    split
    · split <;> exact Or.inr ⟨rfl, rfl⟩
    all_goals exact Or.inr ⟨rfl, rfl⟩
  | action action =>
    cases action with
    | metricsLoaded metrics => exact Or.inl rfl
    | resize columns rows => exact Or.inl rfl
    | _ => exact Or.inr ⟨rfl, rfl⟩
  | draw area cells => exact Or.inr ⟨rfl, rfl⟩

/-- Looking around draws nothing. -/
theorem generation_of_looks (s : ClusterScreen α) (now : Duration) {input : Input α} (h : input.looks = true) :
    (s.step (now, input)).dashboard.generation = s.dashboard.generation := by
  cases input with
  | key k =>
    simp only [step, onKey]
    split <;> rfl
  | pointer p =>
    simp only [step, onPointer]
    split
    · split <;> rfl
    all_goals rfl
  | action action => cases h
  | draw area cells => cases h

theorem tells_of_forCluster (s : ClusterScreen α) (now : Duration) {input : Input α} (h : input.forCluster = true) :
    (s.step (now, input)).clock.generation = (s.step (now, input)).dashboard.generation := by
  unfold Input.forCluster at h
  split at h
  · exact SceneClock.generation_sync
  · exact SceneClock.generation_sync
  · cases h

end ClusterScreen

/-! ## Both screens -/

/-- **Clocks follow redraws exactly.** After any inputs with a size or a snapshot for the screen among them, the
clock tells the generation of the picture, and it does after the next one. It starts over in that call just if the
generation changes: not if the input only looks around, but whenever the picture is drawn anew. -/
theorem run_clocks (start : Duration) (window : Nat) (inputs : List (Duration × Input α)) (now : Duration)
    (input : Input α) :
    (inputs.any (fun i => i.2.forQueues) = true →
      let s := QueuesScreen.run start window inputs
      let t := s.step (now, input)
      s.clock.generation = s.dashboard.generation ∧
        ClockFollows now s.clock t.clock s.dashboard.generation t.dashboard.generation ∧
        (input.looks = true → t.clock = s.clock) ∧
        ∀ d : QueueDashboard α, d.generation = s.dashboard.generation → t.dashboard = d.redraw →
          t.clock.drawnAt = now) ∧
    (inputs.any (fun i => i.2.forCluster) = true →
      let s := ClusterScreen.run start inputs
      let t := s.step (now, input)
      s.clock.generation = s.dashboard.generation ∧
        ClockFollows now s.clock t.clock s.dashboard.generation t.dashboard.generation ∧
        (input.looks = true → t.clock = s.clock) ∧
        ∀ d : ClusterDashboard α, d.generation = s.dashboard.generation → t.dashboard = d.redraw →
          t.clock.drawnAt = now) := by
  constructor
  · intro htold s t
    have hagree : s.clock.generation = s.dashboard.generation :=
      agree_since_told QueuesScreen.step _ Input.forQueues _ _ (fun s now _ h => s.tells_of_forQueues now h)
        (fun s now i => s.step_clock now i) htold
    have hfollows := (s.step_clock now input).follows hagree
    refine ⟨hagree, hfollows, fun hlooks => hfollows.same hagree (s.generation_of_looks now hlooks), ?_⟩
    intro d hd hdraw
    rw [hdraw, ← hd] at hfollows
    exact hfollows.restarts (Nat.succ_ne_self d.generation)
  · intro htold s t
    have hagree : s.clock.generation = s.dashboard.generation :=
      agree_since_told ClusterScreen.step _ Input.forCluster _ _ (fun s now _ h => s.tells_of_forCluster now h)
        (fun s now i => s.step_clock now i) htold
    have hfollows := (s.step_clock now input).follows hagree
    refine ⟨hagree, hfollows, fun hlooks => hfollows.same hagree (s.generation_of_looks now hlooks), ?_⟩
    intro d hd hdraw
    rw [hdraw, ← hd] at hfollows
    exact hfollows.restarts (Nat.succ_ne_self d.generation)

end

/-- A fold by key a second after the load starts the clock over, and the pointer on the tree does not. A terminal
of 120 columns starts that of the other screen over. -/
theorem run_clocks_fold :
    letI : Trig ℚ := .rational
    let records : List (QueueRecord ℚ) := [{ QueueRecord.named "root" with children := ["a"] }, .named "a"]
    let inputs : List (Duration × Input ℚ) :=
      [(⟨0⟩, .action (.queuesLoaded records)), (⟨0⟩, .action (.resize 80 24)),
        (⟨0⟩, .draw { width := 80, height := 24 } (.blank 80 24))]
    let queues := QueuesScreen.run ⟨0⟩ 400 inputs
    let cluster := ClusterScreen.run ⟨0⟩ inputs
    (queues.step (⟨1⟩, .key ⟨.enter, {}⟩)).clock.drawnAt = ⟨1⟩ ∧
      (queues.step (⟨1⟩, .pointer ⟨.moved, 3, 2⟩)).clock = queues.clock ∧
      (cluster.step (⟨1⟩, .action (.resize 120 24))).clock.drawnAt = ⟨1⟩ := by
  let trig : Trig ℚ := .rational
  intro records inputs queues cluster
  have hqueues : inputs.any (fun i => i.2.forQueues) = true := rfl
  have hcluster : inputs.any (fun i => i.2.forCluster) = true := rfl
  obtain ⟨-, hfold, -⟩ := (run_clocks ⟨0⟩ 400 inputs ⟨1⟩ (.key ⟨.enter, {}⟩)).1 hqueues
  obtain ⟨-, -, hlook, -⟩ := (run_clocks ⟨0⟩ 400 inputs ⟨1⟩ (.pointer ⟨.moved, 3, 2⟩)).1 hqueues
  obtain ⟨-, hwiden, -⟩ := (run_clocks ⟨0⟩ 400 inputs ⟨1⟩ (.action (.resize 120 24))).2 hcluster
  exact ⟨hfold.restarts (by decide +kernel), hlook rfl, hwiden.restarts (by decide +kernel)⟩

end QueueBoard.Terminal
