import Mathlib.Data.List.Forall2
import QueueBoard.Proofs.Command.Step
import QueueBoard.Proofs.Terminal.Exchange
import QueueBoard.Proofs.Terminal.Inputs
/-!
# Rounds of the loader

The loader and the dashboard take turns in any order, while the contents of the files change. A round is a list
of errands, one for each snapshot that is configured; the loader reads a file at one turn and sends what it found
at another, and between rounds it looks whether it is cancelled before it looks for requests. `Orderly` says what
holds at every moment: how many rounds there were, what each of them sent, that nothing of it is lost or
overtaken on the way, and that the boards show what was taken last (`run_orderly`).
-/

namespace QueueBoard.Terminal

/-! ## Errands -/

/-- One thing to do in a round. -/
inductive Errand where
  /-- There is nothing to read. -/
  | excuse
  | queues (path : String)
  | metrics (path : String)

/-- What a round has to do, in order. -/
def Sources.errands (s : Sources) : List Errand :=
  match s.queues, s.metrics with
  | none, none => [.excuse]
  | queues, metrics => (queues.map .queues).toList ++ (metrics.map .metrics).toList

section

variable {m : Type → Type} [Monad m] [FileStore m]

/-- Does an errand; tells what is to be sent. -/
def Errand.perform : Errand → m (Action Float)
  | .excuse => return .notify nothingToLoad
  | .queues path => return delivery .queuesLoaded (← Snapshot.loadQueues path)
  | .metrics path => return delivery .metricsLoaded (← Snapshot.loadMetrics path)

/-- A round does its errands. -/
theorem loadRound_eq_mapM [LawfulMonad m] (s : Sources) :
    (loadRound s : m (List (Action Float))) = s.errands.mapM Errand.perform := by
  obtain ⟨queues, metrics⟩ := s
  cases queues <;> cases metrics <;> simp [loadRound, Sources.errands, Errand.perform]

end

/-- What comes of an errand on files of some contents. -/
def Errand.result (files : FileTree) (errand : Errand) : Action Float :=
  ((errand.perform : OnFileTree (Action Float)).run files).1

theorem Errand.perform_run (errand : Errand) (files : FileTree) :
    (errand.perform : OnFileTree (Action Float)).run files = (errand.result files, files) := by
  cases errand <;> rfl

/-- A round on files that do not change sends what comes of its errands. -/
theorem loadRound_run (s : Sources) (files : FileTree) :
    (loadRound s : OnFileTree (List (Action Float))).run files = (s.errands.map (Errand.result files), files) := by
  rw [loadRound_eq_mapM]
  exact OnFileTree.mapM_run (fun errand => errand.perform_run files) _

/-- Rounds on files that do not change all send the same. -/
theorem loadRounds_run (s : Sources) (requests : Nat) (cancelled : Bool) (files : FileTree) :
    (loadRounds s requests cancelled : OnFileTree (List (Action Float))).run files =
      ((List.replicate (if cancelled then 1 else requests + 1) (s.errands.map (Errand.result files))).flatten,
        files) := by
  rw [loadRounds, OnFileTree.bind_run, OnFileTree.mapM_run (fun _ => loadRound_run s files), OnFileTree.pure_run,
    List.map_replicate]

/-- Whether a message comes from the loader. -/
def Action.fromLoader : Action Float → Bool
  | .queuesLoaded _ | .metricsLoaded _ | .loadFailed _ => true
  | .notify message => message == nothingToLoad
  | _ => false

theorem Errand.fromLoader_result (files : FileTree) (errand : Errand) :
    (errand.result files).fromLoader = true := by
  have hdelivery : ∀ {β : Type} (loaded : β → Action Float) (r : Except Snapshot.Error β),
      (∀ b, (loaded b).fromLoader = true) → (delivery loaded r).fromLoader = true := by
    intro β loaded r h
    cases r with
    | ok b => exact h b
    | error cause => rfl
  cases errand with
  | excuse => exact beq_self_eq_true _
  | queues path => exact hdelivery _ _ fun _ => rfl
  | metrics path => exact hdelivery _ _ fun _ => rfl

/-- What follows from loaded queues is not from the loader. -/
theorem fromLoader_notify (count : Nat) :
    (Action.notify (toString count ++ " queues loaded") : Action Float).fromLoader = false := by
  refine beq_eq_false_iff_ne.2 fun heq => ?_
  have hlast := congrArg (fun text => text.toList.getLast?) heq
  rw [String.toList_append, List.getLast?_append, show " queues loaded".toList.getLast? = some 'd' by decide,
    Option.some_or] at hlast
  exact absurd hlast (by decide)

/-! ## Turns -/

/-- What the loader is about. -/
inductive Stage where
  /-- In a round, with a message that is to be sent if there is one, and errands left; with nothing to send and
  nothing left the round is over, and the loader waits. -/
  | working (ready : Option (Action Float)) (left : List Errand)
  | ended

/-- The loader and the dashboard at work. -/
structure Loading where
  files : FileTree
  stage : Stage
  /-- The requests that the loader has yet to receive. -/
  requests : Nat := 0
  cancelled : Bool := false
  /-- The dashboard is gone, and with it whoever asks for rounds. -/
  closed : Bool := false
  channel : List (Action Float)
  app : App Float
  /-- All contents that the files have had. -/
  seen : List FileTree
  /-- What was sent in the rounds before the last one. -/
  past : List (List (Action Float)) := []
  /-- What was sent in the last round. -/
  current : List (Action Float) := []
  /-- The messages that the dashboard has taken. -/
  taken : List (Action Float) := []

/-- Whose turn it is. -/
inductive Turn where
  | loader
  /-- The dashboard takes a message. -/
  | take (now : Duration)
  | event (now : Duration) (event : Event)
  | draw (now : Duration) (columns rows : Nat)
  /-- The files get other contents. -/
  | store (files : FileTree)
  | cancel
  | close

namespace Loading

/-- The start: the loader is about to do its first errand, the first screen is focused and the size told. -/
def start (s : Sources) (files : FileTree) (now : Duration) (doubleClick columns rows : Nat) : Loading where
  files
  stage := .working none s.errands
  channel := [.resize columns rows]
  app := .start now doubleClick
  seen := [files]

/-- The rounds that have begun. -/
def rounds (x : Loading) : List (List (Action Float)) := x.past ++ [x.current]

/-- The loader sends what is ready, or does the next errand, or stops if it is cancelled, or begins a round if
one is requested, or stops if nobody is there to request one, or waits. -/
def work (s : Sources) (x : Loading) : Loading :=
  match x.stage with
  | .working (some message) left =>
    { x with stage := .working none left, current := x.current ++ [message], channel := x.channel ++ [message] }
  | .working none (errand :: left) => { x with stage := .working (some (errand.result x.files)) left }
  | .working none [] =>
    if x.cancelled then { x with stage := .ended }
    else
      match x.requests with
      | requests + 1 =>
        { x with requests, stage := .working none s.errands, past := x.past ++ [x.current], current := [] }
      | 0 => if x.closed then { x with stage := .ended } else x
  | .ended => x

/-- The dashboard takes the message at the head of the channel. -/
def take (now : Duration) (x : Loading) : Loading :=
  match x.channel with
  | [] => x
  | action :: rest =>
    { x with
      channel := rest ++ (x.app.process now action).1
      app := (x.app.process now action).2
      requests := if action.isReload then x.requests + 1 else x.requests
      taken := x.taken ++ [action] }

/-- A turn. The dashboard has none once it is gone. -/
def step (s : Sources) (x : Loading) : Turn → Loading
  | .loader => x.work s
  | .take now => if x.closed then x else x.take now
  | .event now event =>
    if x.closed then x
    else
      { x with
        channel := x.channel ++ (x.app.onEvent now event).1.toList
        app := (x.app.onEvent now event).2 }
  | .draw now columns rows => if x.closed then x else { x with app := (x.app.draw now columns rows).2 }
  | .store files => { x with files, seen := x.seen ++ [files] }
  | .cancel => { x with cancelled := true }
  | .close => { x with closed := true }

/-- Some turns. -/
def run (s : Sources) (x : Loading) (turns : List Turn) : Loading := turns.foldl (step s) x

/-! ## What holds at every moment -/

/-- A message is what came of an errand on contents that the files have had. -/
def CameOf (seen : List FileTree) (message : Action Float) (errand : Errand) : Prop :=
  ∃ files ∈ seen, message = errand.result files

/-- A good order of the work. -/
structure Orderly (s : Sources) (x : Loading) : Prop where
  files : x.files ∈ x.seen
  /-- There was one round at the start, and there was or will be one for each request. -/
  rounds_requests : x.rounds.length + x.requests = x.taken.countP Action.isReload + 1
  /-- The loader ends when it is cancelled, or when all requests are served and nobody can ask any more. -/
  ended : x.stage = .ended → x.cancelled = true ∨ x.closed = true ∧ x.requests = 0
  /-- A round that is over has sent what came of its errands, one message for each, in order. -/
  past : ∀ round ∈ x.past, List.Forall₂ (CameOf x.seen) round s.errands
  /-- The last round has done so for the errands that it has done. -/
  working : ∀ ready left, x.stage = .working ready left →
    ∃ done, List.Forall₂ (CameOf x.seen) (x.current ++ ready.toList) done ∧ done ++ left = s.errands
  /-- In the end it has done all of them. -/
  last : x.stage = .ended → List.Forall₂ (CameOf x.seen) x.current s.errands
  /-- What was sent was taken or is on its way, in order. -/
  sent : (x.taken ++ x.channel).filter Action.fromLoader = x.rounds.flatten
  /-- The queue board shows the tree of the queues that were taken last. -/
  tree : x.app.queues.dashboard.tree = (x.taken.filterMap Action.tree?).getLastD (.build [])
  /-- The cluster board shows the counters that were taken last. -/
  metrics : x.app.cluster.dashboard.metrics = (x.taken.filterMap Action.metrics?).getLastD .zero

variable {s : Sources} {x : Loading}

theorem fromLoader_of_forall₂ {seen : List FileTree} {messages : List (Action Float)} {errands : List Errand}
    (h : List.Forall₂ (CameOf seen) messages errands) : ∀ message ∈ messages, message.fromLoader = true := by
  induction h with
  | nil => exact fun _ hmem => absurd hmem List.not_mem_nil
  | cons hcame _ ih =>
    obtain ⟨files, -, rfl⟩ := hcame
    exact List.forall_mem_cons.2 ⟨Errand.fromLoader_result _ _, ih⟩

theorem orderly_start (s : Sources) (files : FileTree) (now : Duration) (doubleClick columns rows : Nat) :
    (start s files now doubleClick columns rows).Orderly s where
  files := List.mem_singleton_self _
  rounds_requests := rfl
  ended h := nomatch h
  past _ h := absurd h List.not_mem_nil
  working ready left h := by
    cases h
    exact ⟨[], .nil, rfl⟩
  last h := nomatch h
  sent := rfl
  tree := rfl
  metrics := rfl

/-! ### The loader -/

/-- The loader sends what is ready. -/
theorem Orderly.send (h : x.Orderly s) {message : Action Float} {left : List Errand}
    (hstage : x.stage = .working (some message) left) :
    Orderly s { x with
      stage := .working none left, current := x.current ++ [message], channel := x.channel ++ [message] } := by
  obtain ⟨done, hdone, hleft⟩ := h.working _ _ hstage
  have hmessage : message.fromLoader = true :=
    fromLoader_of_forall₂ hdone message (List.mem_append_right _ (List.mem_singleton_self _))
  refine { h with rounds_requests := ?_, ended := nofun, working := ?_, last := nofun, sent := ?_ }
  · simpa [rounds] using h.rounds_requests
  · rintro ready left' hworking
    cases hworking
    exact ⟨done, by simpa using hdone, hleft⟩
  · have hsent := h.sent
    simp only [rounds, List.flatten_append, List.flatten_singleton] at hsent ⊢
    rw [← List.append_assoc, List.filter_append, hsent, List.filter_singleton, hmessage, List.append_assoc]
    rfl

/-- The loader does an errand. -/
theorem Orderly.errand (h : x.Orderly s) {errand : Errand} {left : List Errand}
    (hstage : x.stage = .working none (errand :: left)) :
    Orderly s { x with stage := .working (some (errand.result x.files)) left } := by
  obtain ⟨done, hdone, hleft⟩ := h.working _ _ hstage
  refine { h with ended := nofun, working := ?_, last := nofun }
  rintro ready left' hworking
  cases hworking
  refine ⟨done ++ [errand], List.rel_append ?_ ?_, by simpa using hleft⟩
  · simpa using hdone
  · exact .cons ⟨x.files, h.files, rfl⟩ .nil

/-- A round that is over has done all errands. -/
theorem Orderly.finished (h : x.Orderly s) (hstage : x.stage = .working none []) :
    List.Forall₂ (CameOf x.seen) x.current s.errands := by
  obtain ⟨done, hdone, hleft⟩ := h.working _ _ hstage
  rw [List.append_nil] at hleft
  simpa [hleft] using hdone

/-- The loader stops. -/
theorem Orderly.stop (h : x.Orderly s) (hstage : x.stage = .working none [])
    (hwhy : x.cancelled = true ∨ x.closed = true ∧ x.requests = 0) :
    Orderly s { x with stage := .ended } :=
  { h with ended := fun _ => hwhy, working := nofun, last := fun _ => h.finished hstage }

/-- The loader begins a round. -/
theorem Orderly.begin (h : x.Orderly s) (hstage : x.stage = .working none []) {requests : Nat}
    (hrequests : x.requests = requests + 1) :
    Orderly s { x with
      requests, stage := .working none s.errands, past := x.past ++ [x.current], current := [] } := by
  refine { h with
    rounds_requests := ?_, ended := nofun, past := ?_, working := ?_, last := nofun, sent := ?_ }
  · have hcount := h.rounds_requests
    simp only [rounds, List.length_append, List.length_singleton] at hcount ⊢
    omega
  · intro round hround
    rcases List.mem_append.1 hround with hpast | hlast
    · exact h.past round hpast
    · rw [List.mem_singleton.1 hlast]
      exact h.finished hstage
  · rintro ready left hworking
    cases hworking
    exact ⟨[], .nil, rfl⟩
  · have hsent := h.sent
    simp only [rounds, List.flatten_append, List.flatten_singleton, List.append_nil] at hsent ⊢
    exact hsent

theorem Orderly.work (h : x.Orderly s) : (x.work s).Orderly s := by
  unfold Loading.work
  split
  · rename_i hstage
    exact h.send hstage
  · rename_i hstage
    exact h.errand hstage
  · rename_i hstage
    split
    · rename_i hcancelled
      exact h.stop hstage (.inl hcancelled)
    · split
      · rename_i hrequests
        exact h.begin hstage hrequests
      · rename_i hrequests
        split
        · rename_i hclosed
          exact h.stop hstage (.inr ⟨hclosed, hrequests⟩)
        · exact h
  · exact h

/-! ### The dashboard -/

/-- Nothing that follows from a message is from the loader. -/
theorem fromLoader_process (a : App Float) (now : Duration) (action : Action Float) :
    (a.process now action).1.filter Action.fromLoader = [] := by
  cases hqueues : action.isQueues with
  | false => rw [a.process_of_not_queues now hqueues, List.filter_nil]
  | true =>
    cases action with
    | queuesLoaded records =>
      obtain ⟨count, hcount⟩ := a.process_queues now records
      rw [hcount, List.filter_singleton, fromLoader_notify]
      rfl
    | _ => cases hqueues

/-- Nothing that an event asks for is from the loader. -/
theorem fromLoader_onEvent (a : App Float) (now : Duration) (event : Event) :
    (a.onEvent now event).1.toList.filter Action.fromLoader = [] := by
  refine List.filter_eq_nil_iff.2 fun action hasked => ?_
  rcases App.quiet_or_reload_of_onEvent (Option.mem_toList.1 hasked) with hquiet | ⟨-, rfl⟩
  · cases action <;> first | exact Bool.false_ne_true | cases hquiet
  · exact Bool.false_ne_true

/-- The last of the values that messages bring, one message later. -/
theorem getLastD_filterMap_concat {β γ : Type} (f : β → Option γ) (messages : List β) (b : β) (default : γ) :
    ((messages ++ [b]).filterMap f).getLastD default = (f b).getD ((messages.filterMap f).getLastD default) := by
  rw [List.filterMap_append]
  cases h : f b <;> simp [h]

theorem Orderly.take (h : x.Orderly s) (hopen : x.closed = false) (now : Duration) : (x.take now).Orderly s := by
  unfold Loading.take
  split
  · exact h
  · rename_i action rest hchannel
    have hgiven := x.app.process_given now action
    refine { h with rounds_requests := ?_, ended := ?_, sent := ?_, tree := ?_, metrics := ?_ }
    · have hcount := h.rounds_requests
      simp only [rounds, List.countP_append, List.countP_singleton] at hcount ⊢
      split <;> omega
    · refine fun hended => .inl ((h.ended hended).resolve_right fun hclosed => ?_)
      rw [hopen] at hclosed
      cases hclosed.1
    · have hsent := h.sent
      rw [hchannel] at hsent
      rw [← List.append_assoc, List.filter_append, fromLoader_process, List.append_nil, List.append_assoc]
      exact hsent
    · rw [getLastD_filterMap_concat, ← h.tree]
      exact congrArg (fun given => given.1.snapshot) hgiven
    · rw [getLastD_filterMap_concat, ← h.metrics]
      exact congrArg (fun given => given.2.snapshot) hgiven

theorem Orderly.event (h : x.Orderly s) (now : Duration) (event : Event) :
    Orderly s { x with
      channel := x.channel ++ (x.app.onEvent now event).1.toList, app := (x.app.onEvent now event).2 } := by
  have hgiven := x.app.onEvent_given now event
  refine { h with sent := ?_, tree := ?_, metrics := ?_ }
  · rw [← List.append_assoc, List.filter_append, fromLoader_onEvent, List.append_nil]
    exact h.sent
  · exact (congrArg (fun given => given.1.snapshot) hgiven).trans h.tree
  · exact (congrArg (fun given => given.2.snapshot) hgiven).trans h.metrics

theorem Orderly.draw (h : x.Orderly s) (now : Duration) (columns rows : Nat) :
    Orderly s { x with app := (x.app.draw now columns rows).2 } :=
  have hgiven := x.app.draw_given now columns rows
  { h with
    tree := (congrArg (fun given => given.1.snapshot) hgiven).trans h.tree
    metrics := (congrArg (fun given => given.2.snapshot) hgiven).trans h.metrics }

/-- Other contents of the files make no difference to what came of the errands before. -/
theorem Orderly.store (h : x.Orderly s) (files : FileTree) :
    Orderly s { x with files, seen := x.seen ++ [files] } := by
  have hkept : ∀ {messages : List (Action Float)} {errands : List Errand},
      List.Forall₂ (CameOf x.seen) messages errands → List.Forall₂ (CameOf (x.seen ++ [files])) messages errands := by
    intro messages errands
    refine List.Forall₂.imp ?_
    rintro message errand ⟨before, hbefore, hresult⟩
    exact ⟨before, List.mem_append_left _ hbefore, hresult⟩
  refine { h with files := ?_, past := ?_, working := ?_, last := ?_ }
  · exact List.mem_append_right _ (List.mem_singleton_self _)
  · exact fun round hround => hkept (h.past round hround)
  · intro ready left hstage
    obtain ⟨done, hdone, hleft⟩ := h.working ready left hstage
    exact ⟨done, hkept hdone, hleft⟩
  · exact fun hstage => hkept (h.last hstage)

/-! ### Every turn -/

theorem Orderly.step (h : x.Orderly s) (turn : Turn) : (x.step s turn).Orderly s := by
  cases turn with
  | loader => exact h.work
  | take now =>
    simp only [Loading.step]
    split
    · exact h
    · rename_i hclosed
      exact h.take (Bool.eq_false_iff.2 hclosed) now
  | event now event =>
    simp only [Loading.step]
    split
    · exact h
    · exact h.event now event
  | draw now columns rows =>
    simp only [Loading.step]
    split
    · exact h
    · exact h.draw now columns rows
  | store files => exact h.store files
  | cancel => exact { h with ended := fun _ => .inl rfl }
  | close => exact { h with ended := fun hended => (h.ended hended).imp id fun hclosed => ⟨rfl, hclosed.2⟩ }

theorem Orderly.run (h : x.Orderly s) (turns : List Turn) : (x.run s turns).Orderly s := by
  induction turns generalizing x with
  | nil => exact h
  | cons turn turns ih => exact ih (h.step turn)

/-! ## Cancelling -/

/-- A loader that is cancelled begins no round. -/
theorem work_of_cancelled (h : x.cancelled = true) :
    (x.work s).cancelled = true ∧ (x.work s).rounds.length = x.rounds.length := by
  unfold work
  split
  · exact ⟨h, by simp [rounds]⟩
  · exact ⟨h, rfl⟩
  · rw [if_pos h]
    exact ⟨h, rfl⟩
  · exact ⟨h, rfl⟩

theorem step_of_cancelled (h : x.cancelled = true) (turn : Turn) :
    (x.step s turn).cancelled = true ∧ (x.step s turn).rounds.length = x.rounds.length := by
  cases turn with
  | loader => exact work_of_cancelled h
  | take now =>
    simp only [step, take]
    split
    · exact ⟨h, rfl⟩
    · split <;> exact ⟨h, rfl⟩
  | event | draw =>
    simp only [step]
    split <;> exact ⟨h, rfl⟩
  | store | close => exact ⟨h, rfl⟩
  | cancel => exact ⟨rfl, rfl⟩

theorem run_of_cancelled (h : x.cancelled = true) (turns : List Turn) :
    (x.run s turns).rounds.length = x.rounds.length := by
  induction turns generalizing x with
  | nil => rfl
  | cons turn turns ih =>
    obtain ⟨hcancelled, hrounds⟩ := step_of_cancelled (s := s) h turn
    exact (ih hcancelled).trans hrounds

/-! ## Serving -/

/-- The turns that the loader needs until it waits for a request. -/
def todo (s : Sources) (x : Loading) : Nat :=
  match x.stage with
  | .working ready left => x.requests * (2 * s.errands.length + 1) + 2 * left.length + ready.toList.length
  | .ended => 0

/-- A loader that is not cancelled gets on with its work. -/
theorem todo_work (hopen : x.cancelled = false) :
    (x.work s).cancelled = false ∧ (x.work s).todo s = x.todo s - 1 := by
  unfold work
  split
  · rename_i hstage
    refine ⟨hopen, ?_⟩
    simp only [todo, hstage, Option.toList]
    simp
  · rename_i hstage
    refine ⟨hopen, ?_⟩
    simp only [todo, hstage, Option.toList, List.length_cons, List.length_nil]
    omega
  · rename_i hstage
    rw [if_neg (by rw [hopen]; exact Bool.false_ne_true)]
    split
    · rename_i requests hrequests
      refine ⟨hopen, ?_⟩
      simp only [todo, hstage, hrequests, Option.toList, List.length_nil, Nat.succ_mul]
      omega
    · rename_i hrequests
      have hnothing : x.todo s = 0 := by simp [todo, hstage, hrequests]
      split
      · exact ⟨hopen, by rw [hnothing]; rfl⟩
      · exact ⟨hopen, by rw [hnothing]⟩
  · rename_i hstage
    exact ⟨hopen, by simp [todo, hstage]⟩

theorem todo_run (hopen : x.cancelled = false) (turns : Nat) :
    (x.run s (List.replicate turns .loader)).cancelled = false ∧
      (x.run s (List.replicate turns .loader)).todo s = x.todo s - turns := by
  induction turns generalizing x with
  | zero => exact ⟨hopen, rfl⟩
  | succ turns ih =>
    obtain ⟨hwork, htodo⟩ := todo_work (s := s) hopen
    obtain ⟨hrun, hrest⟩ := ih hwork
    exact ⟨hrun, hrest.trans (by omega)⟩

theorem taken_work : (x.work s).taken = x.taken := by
  unfold work
  split
  · rfl
  · rfl
  · split
    · rfl
    · split
      · rfl
      · split <;> rfl
  · rfl

theorem taken_run (turns : Nat) : (x.run s (List.replicate turns .loader)).taken = x.taken := by
  induction turns generalizing x with
  | zero => rfl
  | succ turns ih => exact ih.trans taken_work

/-- Between rounds all rounds have done their errands. -/
theorem Orderly.rounds_finished (h : x.Orderly s) (hover : x.stage = .working none [] ∨ x.stage = .ended) :
    ∀ round ∈ x.rounds, List.Forall₂ (CameOf x.seen) round s.errands := by
  intro round hround
  rcases List.mem_append.1 hround with hpast | hlast
  · exact h.past round hpast
  · rw [List.mem_singleton.1 hlast]
    exact hover.elim h.finished h.last

/-- A loader that is not cancelled serves all requests. -/
theorem Orderly.served (h : x.Orderly s) (hopen : x.cancelled = false) :
    let y := x.run s (List.replicate (x.todo s) .loader)
    y.rounds.length = x.taken.countP Action.isReload + 1 ∧
      ∀ round ∈ y.rounds, List.Forall₂ (CameOf y.seen) round s.errands := by
  intro y
  have hy : y.Orderly s := h.run _
  obtain ⟨hopen', htodo⟩ := todo_run (s := s) hopen (x.todo s)
  have hdone : y.requests = 0 ∧ (y.stage = .working none [] ∨ y.stage = .ended) := by
    cases hstage : y.stage with
    | ended =>
      have hwhy := (hy.ended hstage).resolve_left fun hcancelled => by
        rw [show y.cancelled = false from hopen'] at hcancelled
        cases hcancelled
      exact ⟨hwhy.2, .inr rfl⟩
    | working ready left =>
      have hzero : y.todo s = 0 := htodo.trans (Nat.sub_self _)
      rw [todo, hstage] at hzero
      obtain ⟨hsum, hready⟩ := Nat.add_eq_zero_iff.1 hzero
      obtain ⟨hrequests, hleft⟩ := Nat.add_eq_zero_iff.1 hsum
      have hnone : ready = none := by
        cases ready with
        | none => rfl
        | some message => cases hready
      have hnil : left = [] := List.length_eq_zero_iff.1 (by omega)
      refine ⟨(Nat.mul_eq_zero.1 hrequests).resolve_right (by omega), .inl ?_⟩
      rw [hnone, hnil]
  have hcount := hy.rounds_requests
  rw [hdone.1, show y.taken = x.taken from taken_run _] at hcount
  exact ⟨hcount, hy.rounds_finished hdone.2⟩

/-- Between rounds, if the files never changed, the loader has sent what as many rounds one after another send. -/
theorem Orderly.flatten_rounds (h : x.Orderly s) (hover : x.stage = .working none [] ∨ x.stage = .ended)
    {files : FileTree} (hstill : ∀ other ∈ x.seen, other = files) {requests : Nat}
    (hrequests : x.rounds.length = requests + 1) :
    x.rounds.flatten = ((loadRounds s requests false : OnFileTree (List (Action Float))).run files).1 := by
  have hround : ∀ round ∈ x.rounds, round = s.errands.map (Errand.result files) := by
    intro round hmem
    have hcame := h.rounds_finished hover round hmem
    refine List.forall₂_eq_eq_eq ▸ List.forall₂_map_right_iff.2 (hcame.imp ?_)
    rintro message errand ⟨other, hseen, rfl⟩
    rw [hstill other hseen]
  rw [loadRounds_run, List.eq_replicate_of_mem hround, hrequests]
  rfl

/-! ## Every run -/

/-- **The loader's work is in good order at every moment**, whoever has had how many turns and whatever became of
the files: `Orderly` says so of rounds, messages and boards. Once cancelled the loader begins no round; not
cancelled it needs but some turns to have served all requests that were made, and all its rounds have done
their errands then. A failure that the dashboard takes leaves both screens as they are. -/
theorem run_orderly (s : Sources) (files : FileTree) (now : Duration) (doubleClick columns rows : Nat)
    (turns : List Turn) :
    let x := (start s files now doubleClick columns rows).run s turns
    x.Orderly s ∧
    (x.cancelled = true → ∀ more, (x.run s more).rounds.length = x.rounds.length) ∧
    (x.cancelled = false →
      let y := x.run s (List.replicate (x.todo s) .loader)
      y.rounds.length = x.taken.countP Action.isReload + 1 ∧
        ∀ round ∈ y.rounds, List.Forall₂ (CameOf y.seen) round s.errands) ∧
    ∀ later message rest, x.channel = .loadFailed message :: rest →
      let y := x.step s (.take later)
      y.app.queues = x.app.queues ∧ y.app.cluster = x.app.cluster := by
  intro x
  have hx : x.Orderly s := (orderly_start s files now doubleClick columns rows).run turns
  refine ⟨hx, run_of_cancelled, hx.served, fun later message rest hchannel => ?_⟩
  simp only [step, take, hchannel]
  split <;> exact ⟨rfl, rfl⟩

end Loading

end QueueBoard.Terminal
