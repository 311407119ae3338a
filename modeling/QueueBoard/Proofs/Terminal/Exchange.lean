import QueueBoard.Terminal.App
import QueueBoard.Terminal.ScreenId
/-!
# The loader and the dashboard

The loader works beside the dashboard. It sends the messages of a round into the channel of the dashboard
one by one; the dashboard takes messages from the head of the channel and puts what follows from them at its
end. Here both are parties of an exchange, and a run is any sequence of their moves. What a round delivers
are the messages of an `Outcome` (`loadRound_eq`), and which one it is, is left open.
-/

namespace QueueBoard.Terminal

/-! ## Rounds of the loader -/

/-- What a round finds: for each snapshot that is configured, the snapshot or why it cannot be read. -/
structure Outcome (α : Type) where
  queues : Option (Except String (List (QueueRecord α)))
  metrics : Option (Except String (ClusterMetrics α))

namespace Outcome

variable {α β : Type}

/-- The message of a snapshot that was read or not. -/
def announce (loaded : β → Action α) : Except String β → Action α
  | .ok b => loaded b
  | .error message => .loadFailed message

/-- Why a snapshot cannot be read. -/
def failure? : Except String β → Option String
  | .ok _ => none
  | .error message => some message

/-- The messages of a round. -/
def messages (o : Outcome α) : List (Action α) :=
  match o.queues, o.metrics with
  | none, none => [.notify nothingToLoad]
  | queues, metrics =>
    (queues.map (announce .queuesLoaded)).toList ++ (metrics.map (announce .metricsLoaded)).toList

/-- The failures of a round. -/
def failures (o : Outcome α) : List String :=
  (o.queues.bind failure?).toList ++ (o.metrics.bind failure?).toList

theorem mem_messages {o : Outcome α} {action : Action α} :
    action ∈ o.messages ↔
      (o.queues = none ∧ o.metrics = none ∧ action = .notify nothingToLoad) ∨
      (∃ found, o.queues = some found ∧ action = announce .queuesLoaded found) ∨
      ∃ found, o.metrics = some found ∧ action = announce .metricsLoaded found := by
  obtain ⟨queues, metrics⟩ := o
  cases queues <;> cases metrics <;> simp [messages]

theorem reload_not_mem_messages (o : Outcome α) : .reload ∉ o.messages := by
  intro h
  rcases mem_messages.1 h with ⟨-, -, h⟩ | ⟨found, -, h⟩ | ⟨found, -, h⟩
  · cases h
  all_goals cases found <;> cases h

/-- The outcome is about the snapshots that are configured. -/
structure For (o : Outcome α) (s : Sources) : Prop where
  queues : o.queues.isSome = s.queues.isSome
  metrics : o.metrics.isSome = s.metrics.isSome

end Outcome

theorem delivery_eq {β : Type} (loaded : β → Action Float) (r : Except Snapshot.Error β) :
    delivery loaded r = Outcome.announce loaded (r.mapError Snapshot.Error.message) := by
  cases r <;> rfl

/-- **A round delivers the messages of an outcome** for its snapshots. -/
theorem loadRound_eq {m : Type → Type} [Monad m] [LawfulMonad m] [FileStore m] (s : Sources) :
    ∃ read : m { o : Outcome Float // o.For s }, loadRound s = (fun o => o.1.messages) <$> read := by
  obtain ⟨queues, metrics⟩ := s
  cases queues with
  | none =>
    cases metrics with
    | none => exact ⟨pure ⟨⟨none, none⟩, rfl, rfl⟩, by simp [loadRound, Outcome.messages]⟩
    | some path =>
      refine ⟨(fun r => ⟨⟨none, some (r.mapError Snapshot.Error.message)⟩, rfl, rfl⟩) <$>
        Snapshot.loadMetrics path, ?_⟩
      simp [loadRound, Outcome.messages, delivery_eq]
  | some path =>
    cases metrics with
    | none =>
      refine ⟨(fun r => ⟨⟨some (r.mapError Snapshot.Error.message), none⟩, rfl, rfl⟩) <$>
        Snapshot.loadQueues path, ?_⟩
      simp [loadRound, Outcome.messages, delivery_eq]
    | some path' =>
      refine ⟨do
        let first ← Snapshot.loadQueues path
        let second ← Snapshot.loadMetrics path'
        return ⟨⟨some (first.mapError Snapshot.Error.message), some (second.mapError Snapshot.Error.message)⟩,
          rfl, rfl⟩, ?_⟩
      simp [loadRound, Outcome.messages, delivery_eq]

/-! ## What messages do -/

section

variable {α : Type} {action : Action α} {now : Duration}

namespace Action

/-- What a message puts into the status bar. -/
def told : Action α → Option Status
  | .reload => some (.info App.reloading)
  | .loadFailed message => some (.error message)
  | .notify message => some (.info message)
  | _ => none

/-- Whether a message brings queues. A line for the status bar follows from it. -/
def isQueues : Action α → Bool
  | .queuesLoaded _ => true
  | _ => false

/-- Whether a message asks the loader for a round. -/
def isReload : Action α → Bool
  | .reload => true
  | _ => false

/-- Whether a message has nothing to do with the loader or the status bar. -/
def quiet : Action α → Bool
  | .quit | .tick | .frame | .resize .. | .switchScreen _ | .toggleHelp => true
  | _ => false

theorem told_of_quiet (h : action.quiet = true) : action.told = none := by
  cases action <;> first | rfl | cases h

theorem isQueues_of_quiet (h : action.quiet = true) : action.isQueues = false := by
  cases action <;> first | rfl | cases h

end Action

/-- Whether an event is a key or the pointer. -/
def Event.byUser : Event → Bool
  | .key _ | .pointer _ => true
  | _ => false

variable [Scalar α] [Trig α]

namespace App

theorem process_status (a : App α) (now : Duration) (action : Action α) :
    (a.process now action).2.status = action.told.or a.status := by
  cases action with
  | switchScreen target =>
    simp only [process]
    split
    · rfl
    · cases a.active <;> cases target <;> rfl
  | _ => rfl

theorem process_of_not_queues (a : App α) (now : Duration) (h : action.isQueues = false) :
    (a.process now action).1 = [] := by
  cases action with
  | queuesLoaded records => cases h
  | switchScreen target =>
    simp only [process]
    split <;> rfl
  | _ => rfl

theorem process_queues (a : App α) (now : Duration) (records : List (QueueRecord α)) :
    ∃ count : Nat, (a.process now (.queuesLoaded records)).1 = [.notify (toString count ++ " queues loaded")] :=
  ⟨_, rfl⟩

theorem onEvent_status (a : App α) (now : Duration) (event : Event) :
    (a.onEvent now event).2.status = a.status := by
  cases event with
  | key key =>
    simp only [onEvent, onKey]
    split
    · split <;> rfl
    · split
      · rfl
      · split <;> rfl
  | pointer pointer =>
    simp only [onEvent, onPointer]
    split
    · rfl
    · split <;> rfl
  | _ => rfl

omit [Scalar α] [Trig α] in
theorem quiet_or_reload_of_global? {a : App α} {key : Key} (h : a.global? key = some action) :
    action.quiet = true ∨ action = .reload := by
  unfold global? at h
  split at h
  case h_5 =>
    split at h
    · obtain ⟨screen, -, rfl⟩ := Option.map_eq_some_iff.1 h
      exact Or.inl rfl
    · cases h
  all_goals cases h
  all_goals first | exact Or.inl rfl | exact Or.inr rfl

/-- Events ask for quiet messages; a key may ask for a reload, too. -/
theorem quiet_or_reload_of_onEvent {a : App α} {event : Event} (h : (a.onEvent now event).1 = some action) :
    action.quiet = true ∨ event.byUser = true ∧ action = .reload := by
  cases event with
  | key key =>
    simp only [onEvent, onKey] at h
    split at h
    · split at h <;> cases h
      all_goals exact Or.inl rfl
    · split at h
      · rename_i hglobal
        cases h
        exact (quiet_or_reload_of_global? hglobal).imp id fun hreload => ⟨rfl, hreload⟩
      · split at h <;> cases h
  | pointer pointer => cases h
  | _ =>
    cases h
    exact Or.inl rfl

theorem draw_status (a : App α) (now : Duration) (columns rows : Nat) :
    (a.draw now columns rows).2.status = a.status := by
  simp only [draw, drawScreen]
  split <;> rfl

end App

/-! ## The exchange -/

/-- The loader and the dashboard with the channel from one to the other. -/
structure Exchange (α : Type) where
  /-- The rounds that the loader has been asked for and not begun. -/
  requests : Nat
  /-- What the loader has yet to send of its round. -/
  unsent : List (Action α)
  channel : List (Action α)
  app : App α

/-- A move in an exchange. -/
inductive Move (α : Type) where
  /-- The loader begins a round and reads the snapshots. -/
  | begin (o : Outcome α)
  /-- The loader sends the next message of its round. -/
  | send (action : Action α)
  /-- The dashboard takes the message at the head of the channel. -/
  | take (now : Duration) (action : Action α)
  /-- The dashboard takes an event. -/
  | event (now : Duration) (event : Event)
  | draw (now : Duration) (columns rows : Nat)

namespace Exchange

/-- The start: the loader is to begin a round, the first screen is focused and the size told. -/
def start (now : Duration) (doubleClick columns rows : Nat) : Exchange α where
  requests := 1
  unsent := []
  channel := [.resize columns rows]
  app := (App.new now doubleClick).setFocus .first true

/-- The moves, and where they lead. -/
inductive Step (s : Sources) : Exchange α → Move α → Exchange α → Prop
  | begin {x : Exchange α} {o : Outcome α} {requests : Nat} (hfor : o.For s)
      (hrequests : x.requests = requests + 1) (hunsent : x.unsent = []) :
      Step s x (.begin o) { x with requests, unsent := o.messages }
  | send {x : Exchange α} {action : Action α} {unsent : List (Action α)} (hunsent : x.unsent = action :: unsent) :
      Step s x (.send action) { x with unsent, channel := x.channel ++ [action] }
  | take {x : Exchange α} (now : Duration) {action : Action α} {channel : List (Action α)}
      (hchannel : x.channel = action :: channel) :
      Step s x (.take now action) { x with
        requests := if action.isReload then x.requests + 1 else x.requests
        channel := channel ++ (x.app.process now action).1
        app := (x.app.process now action).2 }
  | event {x : Exchange α} (now : Duration) (event : Event) :
      Step s x (.event now event) { x with
        channel := x.channel ++ (x.app.onEvent now event).1.toList
        app := (x.app.onEvent now event).2 }
  | draw {x : Exchange α} (now : Duration) (columns rows : Nat) :
      Step s x (.draw now columns rows) { x with app := (x.app.draw now columns rows).2 }

/-- Moves one after another. -/
inductive Run (s : Sources) : Exchange α → List (Move α) → Exchange α → Prop
  | nil {x : Exchange α} : Run s x [] x
  | cons {x y z : Exchange α} {move : Move α} {moves : List (Move α)} (hstep : Step s x move y)
      (hrun : Run s y moves z) : Run s x (move :: moves) z

/-- What is still to be taken. -/
def inFlight (x : Exchange α) : List (Action α) := x.channel ++ x.unsent

/-- The loader has nothing to do, and all its messages have been taken, with all that followed from them. -/
structure Settled (x : Exchange α) : Prop where
  requests : x.requests = 0
  unsent : x.unsent = []
  channel : ∀ action ∈ x.channel, action.quiet = true

/-! ### One move -/

section

variable {s : Sources} {x y z : Exchange α} {move : Move α} {moves : List (Move α)} {action : Action α}

/-- The status bar tells what the message said that was taken, or what it did before. -/
theorem Step.status (h : Step s x move y) :
    y.app.status = (match move with | .take _ taken => taken.told | _ => none).or x.app.status := by
  cases h with
  | begin | send => rfl
  | take => exact App.process_status _ _ _
  | event => exact App.onEvent_status _ _ _
  | draw => exact App.draw_status _ _ _ _

/-- A message stays in flight until it is taken. -/
theorem Step.inFlight_of_inFlight (h : Step s x move y) (haction : action ∈ x.inFlight) :
    action ∈ y.inFlight ∨ ∃ now, move = .take now action := by
  cases h with
  | begin hfor hrequests hunsent =>
    rw [inFlight, hunsent, List.append_nil] at haction
    exact Or.inl (List.mem_append_left _ haction)
  | send hunsent =>
    rw [inFlight, hunsent] at haction
    refine Or.inl ?_
    rwa [inFlight, List.append_assoc]
  | take now hchannel =>
    rw [inFlight, hchannel, List.cons_append, List.mem_cons] at haction
    rcases haction with rfl | haction
    · exact Or.inr ⟨_, rfl⟩
    · refine Or.inl ?_
      rcases List.mem_append.1 haction with hrest | hunsent
      · exact List.mem_append_left _ (List.mem_append_left _ hrest)
      · exact List.mem_append_right _ hunsent
  | event =>
    refine Or.inl ?_
    rcases List.mem_append.1 haction with hchannel | hunsent
    · exact List.mem_append_left _ (List.mem_append_left _ hchannel)
    · exact List.mem_append_right _ hunsent
  | draw => exact Or.inl haction

/-- What is in flight was so before, belongs to a round that begins, follows from queues that are taken or
comes of an event. -/
theorem Step.mem_inFlight (h : Step s x move y) (haction : action ∈ y.inFlight) :
    action ∈ x.inFlight ∨ (∃ o, move = .begin o ∧ o.For s ∧ action ∈ o.messages) ∨
      (∃ now records, ∃ count : Nat, move = .take now (.queuesLoaded records) ∧
        .queuesLoaded records ∈ x.inFlight ∧ action = .notify (toString count ++ " queues loaded")) ∨
      action.quiet = true ∨ ∃ now event, move = .event now event ∧ event.byUser = true ∧ action = .reload := by
  cases h with
  | begin hfor hrequests hunsent =>
    rcases List.mem_append.1 haction with hchannel | hround
    · exact Or.inl (List.mem_append_left _ hchannel)
    · exact Or.inr (Or.inl ⟨_, rfl, hfor, hround⟩)
  | send hunsent =>
    refine Or.inl ?_
    rwa [inFlight, List.append_assoc, List.singleton_append, ← hunsent] at haction
  | @take now taken channel hchannel =>
    have hhead : taken ∈ x.inFlight := by
      rw [inFlight, hchannel]
      exact List.mem_cons_self
    rcases List.mem_append.1 haction with haction | hunsent
    · rcases List.mem_append.1 haction with hrest | hfollow
      · refine Or.inl (List.mem_append_left _ ?_)
        rw [hchannel]
        exact List.mem_cons_of_mem _ hrest
      · cases taken with
        | queuesLoaded records =>
          obtain ⟨count, hcount⟩ := x.app.process_queues now records
          rw [hcount, List.mem_singleton] at hfollow
          exact Or.inr (Or.inr (Or.inl ⟨now, records, count, rfl, hhead, hfollow⟩))
        | _ =>
          rw [App.process_of_not_queues x.app now rfl] at hfollow
          cases hfollow
    · exact Or.inl (List.mem_append_right _ hunsent)
  | event =>
    rcases List.mem_append.1 haction with haction | hunsent
    · rcases List.mem_append.1 haction with hchannel | hasked
      · exact Or.inl (List.mem_append_left _ hchannel)
      · refine Or.inr (Or.inr (Or.inr ?_))
        exact (App.quiet_or_reload_of_onEvent (Option.mem_toList.1 hasked)).imp id fun hreload => ⟨_, _, rfl, hreload⟩
    · exact Or.inl (List.mem_append_right _ hunsent)
  | draw => exact Or.inl haction

/-- Something follows from queues that are taken. -/
theorem Step.notify_of_queues {now : Duration} {records : List (QueueRecord α)}
    (h : Step s x (.take now (.queuesLoaded records)) y) :
    ∃ count : Nat, .notify (toString count ++ " queues loaded") ∈ y.inFlight := by
  cases h with
  | take now hchannel =>
    obtain ⟨count, hcount⟩ := x.app.process_queues now records
    refine ⟨count, List.mem_append_left _ (List.mem_append_right _ ?_)⟩
    rw [hcount]
    exact List.mem_singleton_self _

theorem Step.of_begin {o : Outcome α} (h : Step s x (.begin o) y) : o.For s ∧ y.unsent = o.messages := by
  cases h with
  | begin hfor => exact ⟨hfor, rfl⟩

/-- The loader is asked for a round by a reload and takes up one when it begins it. -/
theorem Step.requests_le (h : Step s x move y) (hbegin : ∀ o, move ≠ .begin o) : x.requests ≤ y.requests := by
  cases h with
  | begin => exact absurd rfl (hbegin _)
  | take =>
    dsimp only
    split
    · exact Nat.le_succ _
    · exact Nat.le_refl _
  | _ => exact Nat.le_refl _

/-! ### Many moves -/

/-- What every move of a run keeps, the run keeps. -/
theorem Run.invariant {P : Exchange α → Prop} (h : Run s x moves z) (hx : P x)
    (hstep : ∀ {x y : Exchange α} {move}, move ∈ moves → Step s x move y → P x → P y) : P z := by
  induction h with
  | nil => exact hx
  | cons hfirst _ ih =>
    exact ih (hstep List.mem_cons_self hfirst hx) fun hmem => hstep (List.mem_cons_of_mem _ hmem)

/-- If the loader has been asked for a round and ends up with nothing to do, it has begun one. -/
theorem Run.exists_begin (h : Run s x moves z) (hx : 0 < x.requests) (hz : z.Settled) :
    ∃ o, .begin o ∈ moves := by
  refine Classical.byContradiction fun hnone => ?_
  have hrequests : 0 < z.requests :=
    h.invariant (P := fun x => 0 < x.requests) hx fun hmem hstep hpos =>
      Nat.lt_of_lt_of_le hpos (hstep.requests_le fun o ho => hnone ⟨o, ho ▸ hmem⟩)
  exact absurd hz.requests (Nat.ne_of_gt hrequests)

/-- A run around one of its moves. -/
theorem Run.exists_step (h : Run s x moves z) (hmove : move ∈ moves) :
    ∃ earlier later v w, moves = earlier ++ move :: later ∧ Run s x earlier v ∧ Step s v move w ∧
      Run s w later z := by
  induction h with
  | nil => cases hmove
  | cons hfirst hrun ih =>
    rcases List.mem_cons.1 hmove with rfl | hmove
    · exact ⟨[], _, _, _, rfl, .nil, hfirst, hrun⟩
    · obtain ⟨earlier, later, v, w, rfl, hearlier, hstep, hlater⟩ := ih hmove
      exact ⟨_ :: earlier, later, v, w, rfl, .cons hfirst hearlier, hstep, hlater⟩

/-- What `App.processAll` does is to take the messages of the channel one after another. -/
theorem run_processFuel (s : Sources) (now : Duration) (fuel : Nat) (x : Exchange α) :
    ∃ y, Run s x ((App.processFuel now fuel x.channel x.app).1.map (.take now)) y ∧
      y.app = (App.processFuel now fuel x.channel x.app).2 := by
  induction fuel generalizing x with
  | zero => exact ⟨x, .nil, rfl⟩
  | succ fuel ih =>
    cases hchannel : x.channel with
    | nil => exact ⟨x, .nil, rfl⟩
    | cons action channel =>
      obtain ⟨y, hrun, happ⟩ := ih { x with
        requests := if action.isReload then x.requests + 1 else x.requests
        channel := channel ++ (x.app.process now action).1
        app := (x.app.process now action).2 }
      exact ⟨y, .cons (.take now hchannel) hrun, happ⟩

end

end Exchange

end

end QueueBoard.Terminal
