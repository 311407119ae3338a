import QueueBoard.Proofs.Scalar.Rational
import QueueBoard.Proofs.Terminal.Exchange
/-!
# After a reload

A reload puts a line into the status bar that stays until another message speaks (`Action.speaks`). A round
speaks unless there are metrics alone and they can be read: the cluster screen takes them without a word, so
after such rounds the dashboard says forever that it is reloading (`Exchange.run_reload`).
-/

namespace QueueBoard.Terminal

variable {α : Type} {action : Action α} {s : Sources}

namespace Action

/-- Whether a message puts something but a reload into the status bar, itself or through what follows. -/
def speaks : Action α → Bool
  | .queuesLoaded _ | .loadFailed _ | .notify _ => true
  | _ => false

theorem speaks_of_quiet (h : action.quiet = true) : action.speaks = false := by
  cases action <;> first | rfl | cases h

/-- What can be in flight with the snapshots that are configured. -/
def Expected (s : Sources) : Action α → Prop
  | .queuesLoaded _ => s.queues.isSome = true
  | .notify message => message ≠ App.reloading ∧ (s.queues.isSome = true ∨ s.metrics = none)
  | _ => True

theorem expected_of_quiet (h : action.quiet = true) : action.Expected s := by
  cases action <;> trivial

end Action

/-- The number of queues is told in more letters. -/
theorem count_ne_reloading (count : Nat) : toString count ++ " queues loaded" ≠ App.reloading := by
  intro h
  have hlength := congrArg String.length h
  rw [String.length_append, show " queues loaded".length = 14 from rfl,
    show App.reloading.length = 10 from rfl] at hlength
  omega

namespace Outcome

variable {o : Outcome α}

theorem For.expected (h : o.For s) (haction : action ∈ o.messages) : action.Expected s := by
  rcases mem_messages.1 haction with ⟨-, hmetrics, rfl⟩ | ⟨found, hqueues, rfl⟩ | ⟨found, -, rfl⟩
  · refine ⟨by decide, Or.inr ?_⟩
    rw [← Option.not_isSome_iff_eq_none, ← h.metrics, hmetrics]
    exact Bool.false_ne_true
  · cases found with
    | ok records =>
      rw [announce, Action.Expected, ← h.queues, hqueues]
      rfl
    | error message => trivial
  · cases found <;> trivial

/-- A round speaks unless all it finds are metrics. -/
theorem For.exists_speaks_iff (h : o.For s) :
    (∃ action ∈ o.messages, action.speaks = true) ↔
      ¬ (s.queues = none ∧ s.metrics ≠ none ∧ o.failures = []) := by
  obtain ⟨queues, metrics⟩ := o
  obtain ⟨hqueues, hmetrics⟩ := h
  rw [← Option.not_isSome_iff_eq_none, ← hqueues, Ne, ← Option.not_isSome_iff_eq_none, ← hmetrics]
  rcases queues with _ | _ | _ <;> rcases metrics with _ | _ | _ <;>
    simp [messages, failures, announce, failure?, Action.speaks]

end Outcome

namespace Exchange

variable [Scalar α] [Trig α] {x y z : Exchange α} {move : Move α} {moves : List (Move α)}

/-- Whether the dashboard says that it is reloading. -/
def Announces (x : Exchange α) : Prop := x.app.status = some (.info App.reloading)

/-! ## One move -/

theorem Step.expected (h : Step s x move y) (hx : ∀ action ∈ x.inFlight, action.Expected s) :
    ∀ action ∈ y.inFlight, action.Expected s := by
  intro action haction
  rcases h.mem_inFlight haction with hbefore | ⟨o, -, hfor, hround⟩ |
    ⟨now, records, count, -, hqueues, rfl⟩ | hquiet | ⟨now, event, -, -, rfl⟩
  · exact hx action hbefore
  · exact hfor.expected hround
  · exact ⟨count_ne_reloading count, Or.inl (hx _ hqueues)⟩
  · exact Action.expected_of_quiet hquiet
  · trivial

/-- Only a reload announces a reload. -/
theorem Step.not_announces (h : Step s x move y) (hx : ∀ action ∈ x.inFlight, action.Expected s)
    (hreload : ∀ now, move ≠ .take now .reload) (hquiet : ¬ x.Announces) : ¬ y.Announces := by
  rw [Announces, h.status]
  cases h with
  | @take now action channel hchannel =>
    have hexpected := hx action (by rw [inFlight, hchannel]; exact List.mem_cons_self)
    cases action with
    | reload => exact absurd rfl (hreload now)
    | notify message => exact fun heq => hexpected.1 (Status.info.inj (Option.some.inj heq))
    | loadFailed message =>
      rintro ⟨⟩
    | _ => exact hquiet
  | _ => exact hquiet

/-- A message that speaks is in flight, or one has spoken. -/
def Answered (x : Exchange α) : Prop := (∃ action ∈ x.inFlight, action.speaks = true) ∨ ¬ x.Announces

theorem Step.answered (h : Step s x move y) (hx : ∀ action ∈ x.inFlight, action.Expected s)
    (hreload : ∀ now, move ≠ .take now .reload) (hanswered : x.Answered) : y.Answered := by
  rcases hanswered with ⟨action, haction, hspeaks⟩ | hquiet
  · rcases h.inFlight_of_inFlight haction with haction | ⟨now, rfl⟩
    · exact Or.inl ⟨action, haction, hspeaks⟩
    · cases action with
      | queuesLoaded records =>
        obtain ⟨count, hcount⟩ := h.notify_of_queues
        exact Or.inl ⟨_, hcount, rfl⟩
      | loadFailed message =>
        refine Or.inr ?_
        rw [Announces, h.status]
        rintro ⟨⟩
      | notify message =>
        refine Or.inr ?_
        rw [Announces, h.status]
        exact fun heq => (hx _ haction).1 (Status.info.inj (Option.some.inj heq))
      | _ => cases hspeaks
  · exact Or.inr (h.not_announces hx hreload hquiet)

/-- As long as nothing speaks, the status bar stays as it is. -/
theorem Step.silent (h : Step s x move y) (hreload : ∀ now, move ≠ .take now .reload)
    (hround : ∀ o, move = .begin o → ∀ action ∈ o.messages, action.speaks = false)
    (hx : ∀ action ∈ x.inFlight, action.speaks = false) :
    (∀ action ∈ y.inFlight, action.speaks = false) ∧ y.app.status = x.app.status := by
  constructor
  · intro action haction
    rcases h.mem_inFlight haction with hbefore | ⟨o, rfl, -, hmem⟩ |
      ⟨now, records, count, -, hqueues, -⟩ | hquiet | ⟨now, event, -, -, rfl⟩
    · exact hx action hbefore
    · exact hround o rfl action hmem
    · cases hx _ hqueues
    · exact Action.speaks_of_quiet hquiet
    · rfl
  · rw [h.status]
    cases h with
    | @take now action channel hchannel =>
      have hsilent := hx action (by rw [inFlight, hchannel]; exact List.mem_cons_self)
      cases action with
      | reload => exact absurd rfl (hreload now)
      | notify | loadFailed => cases hsilent
      | _ => rfl
    | _ => rfl

/-! ## Whole runs -/

theorem Run.expected (h : Run s x moves z) (hx : ∀ action ∈ x.inFlight, action.Expected s) :
    ∀ action ∈ z.inFlight, action.Expected s :=
  h.invariant (P := fun x => ∀ action ∈ x.inFlight, action.Expected s) hx fun _ hstep => hstep.expected

theorem start_expected (now : Duration) (doubleClick columns rows : Nat) :
    ∀ action ∈ (start (α := α) now doubleClick columns rows).inFlight, action.Expected s := by
  intro action haction
  cases List.mem_singleton.1 haction
  trivial

theorem Run.answered (h : Run s x moves z) (hx : ∀ action ∈ x.inFlight, action.Expected s)
    (hreload : ∀ now, .take now .reload ∉ moves) (hanswered : x.Answered) : z.Answered :=
  (h.invariant (P := fun x => (∀ action ∈ x.inFlight, action.Expected s) ∧ x.Answered) ⟨hx, hanswered⟩
    fun hmove hstep hx => ⟨hstep.expected hx.1, hstep.answered hx.1 (fun now heq => hreload now (heq ▸ hmove)) hx.2⟩).2

omit [Scalar α] [Trig α] in
theorem Settled.not_announces (h : z.Settled) (hanswered : z.Answered) : ¬ z.Announces := by
  refine hanswered.resolve_left ?_
  rintro ⟨action, haction, hspeaks⟩
  rw [inFlight, h.unsent, List.append_nil] at haction
  rw [Action.speaks_of_quiet (h.channel action haction)] at hspeaks
  cases hspeaks

/-- If the dashboard ends up announcing a reload, no round has spoken since. -/
theorem Run.silent_of_begin (h : Run s x moves z) (hx : ∀ action ∈ x.inFlight, action.Expected s)
    (hreload : ∀ now, .take now .reload ∉ moves) (hz : z.Settled) (hannounces : z.Announces) {o : Outcome α}
    (ho : .begin o ∈ moves) : s.queues = none ∧ s.metrics ≠ none ∧ o.failures = [] := by
  obtain ⟨earlier, later, v, w, rfl, hearlier, hstep, hlater⟩ := h.exists_step ho
  obtain ⟨hfor, hunsent⟩ := hstep.of_begin
  refine Classical.byContradiction fun hspeaks => ?_
  obtain ⟨action, haction, hspeaks⟩ := hfor.exists_speaks_iff.2 hspeaks
  have hflight : action ∈ w.inFlight := List.mem_append_right _ (hunsent ▸ haction)
  have hafter : ∀ now, .take now .reload ∉ later := fun now hmem =>
    hreload now (List.mem_append_right _ (List.mem_cons_of_mem _ hmem))
  exact hz.not_announces
    (hlater.answered (hstep.expected (hearlier.expected hx)) hafter (Or.inl ⟨action, hflight, hspeaks⟩)) hannounces

theorem Run.status_of_silent (h : Run s x moves z) (hreload : ∀ now, .take now .reload ∉ moves)
    (hround : ∀ o, .begin o ∈ moves → ∀ action ∈ o.messages, action.speaks = false)
    (hx : ∀ action ∈ x.inFlight, action.speaks = false) : z.app.status = x.app.status := by
  refine (h.invariant
    (P := fun v => (∀ action ∈ v.inFlight, action.speaks = false) ∧ v.app.status = x.app.status) ⟨hx, rfl⟩ ?_).2
  intro v w move hmove hstep hv
  have hsilent := hstep.silent (fun now heq => hreload now (heq ▸ hmove))
    (fun o heq => hround o (heq ▸ hmove)) hv.1
  exact ⟨hsilent.1, hsilent.2.trans hv.2⟩

/-- **When a reload is announced forever.** Take a reload at any time, and let everything be delivered and
taken, with all that follows, and no other reload. Then the status bar says that the dashboard is reloading
just if metrics alone are configured, the rounds since then could read them, and no failure of a round before
was on its way. -/
theorem run_reload {start now : Duration} {doubleClick columns rows : Nat} {earlier later : List (Move α)}
    (hearlier : Run s (.start start doubleClick columns rows) earlier x)
    (htaken : Step s x (.take now .reload) y) (hlater : Run s y later z)
    (hlast : ∀ now, .take now .reload ∉ later) (hz : z.Settled) :
    z.app.status = some (.info App.reloading) ↔
      s.queues = none ∧ s.metrics ≠ none ∧ (∀ o, .begin o ∈ later → o.failures = []) ∧
        ∀ message, .loadFailed message ∉ y.inFlight := by
  have hexpected : ∀ action ∈ y.inFlight, action.Expected s :=
    htaken.expected (hearlier.expected (start_expected start doubleClick columns rows))
  have hannounces : y.Announces := htaken.status
  have hrequested : 0 < y.requests := by
    cases htaken
    exact Nat.succ_pos _
  obtain ⟨round, hround⟩ := hlater.exists_begin hrequested hz
  constructor
  · intro hforever
    have hsilent := fun o => hlater.silent_of_begin hexpected hlast hz hforever (o := o)
    refine ⟨(hsilent round hround).1, (hsilent round hround).2.1, fun o ho => (hsilent o ho).2.2, ?_⟩
    intro message hmessage
    exact hz.not_announces (hlater.answered hexpected hlast (Or.inl ⟨_, hmessage, rfl⟩)) hforever
  · rintro ⟨hqueues, hmetrics, hrounds, hfailures⟩
    refine (hlater.status_of_silent hlast (fun o ho action haction => ?_) fun action haction => ?_).trans hannounces
    · obtain ⟨_, _, _, _, -, -, hstep, -⟩ := hlater.exists_step ho
      refine Bool.eq_false_iff.2 fun hspeaks => ?_
      exact hstep.of_begin.1.exists_speaks_iff.1 ⟨action, haction, hspeaks⟩ ⟨hqueues, hmetrics, hrounds o ho⟩
    · have haction' := hexpected action haction
      cases action with
      | queuesLoaded records =>
        rw [Action.Expected, hqueues] at haction'
        cases haction'
      | loadFailed message => exact absurd haction (hfailures message)
      | notify message =>
        rw [Action.Expected, hqueues] at haction'
        exact absurd (haction'.2.resolve_left Bool.false_ne_true) hmetrics
      | _ => rfl

/-- With queues, the announcement of a reload ends. -/
theorem run_reload_queues :
    letI : Trig ℚ := .rational
    let s : Sources := { queues := some "queues.json" }
    let round : Outcome ℚ := ⟨some (.ok []), none⟩
    ∃ earlier later x y z, Run s (.start ⟨0⟩ 400 80 24) (.begin round :: earlier) x ∧
      Step s x (.take ⟨0⟩ .reload) y ∧ Run s y (.begin round :: later) z ∧ z.Settled ∧
        z.app.status ≠ some (.info App.reloading) := by
  let trig : Trig ℚ := .rational
  intro s round
  have hround : round.For s := ⟨rfl, rfl⟩
  have hearlier : ∃ earlier x, Run s (.start ⟨0⟩ 400 80 24) (.begin round :: earlier) x ∧ x.requests = 0 ∧
      x.unsent = [] ∧ x.channel = [.reload] :=
    ⟨_, _, .cons (.begin hround rfl rfl) <| .cons (.send rfl) <| .cons (.take ⟨0⟩ rfl) <|
      .cons (.take ⟨0⟩ rfl) <| .cons (.take ⟨0⟩ rfl) <|
      .cons (.event ⟨0⟩ (.key ⟨.char 'r', {}⟩)) .nil, rfl, rfl, rfl⟩
  obtain ⟨earlier, x, hearlier, hrequests, hunsent, hchannel⟩ := hearlier
  obtain ⟨y, htaken, hrequested, hidle, hempty⟩ : ∃ y, Step s x (.take ⟨0⟩ .reload) y ∧ y.requests = 1 ∧
      y.unsent = [] ∧ y.channel = [] :=
    ⟨_, .take ⟨0⟩ hchannel, congrArg Nat.succ hrequests, hunsent, rfl⟩
  have hlater : ∃ later z, Run s y (.begin round :: later) z ∧ z.Settled ∧
      ∀ now, .take now .reload ∉ Move.begin round :: later := by
    refine ⟨_, _, .cons (.begin hround hrequested hidle) <| .cons (.send rfl) <|
      .cons (.take ⟨0⟩ (by rw [hempty]; rfl)) <| .cons (.take ⟨0⟩ rfl) .nil,
      ⟨rfl, rfl, ?_⟩, fun now h => ?_⟩
    · exact fun _ h => nomatch h
    · simp [Outcome.announce] at h
  obtain ⟨later, z, hlater, hz, hlast⟩ := hlater
  refine ⟨earlier, later, x, y, z, hearlier, htaken, hlater, hz, ?_⟩
  rw [Ne, run_reload hearlier htaken hlater hlast hz]
  exact fun h => absurd h.1 (Option.some_ne_none _)

/-- With metrics alone that can be read, it does not: everything has been delivered and taken, and the
dashboard still says that it is reloading. -/
theorem reload_announced_forever :
    letI : Trig ℚ := .rational
    let s : Sources := { metrics := some "metrics.json" }
    let round : Outcome ℚ := ⟨none, some (.ok .zero)⟩
    ∃ earlier later x y z, Run s (.start ⟨0⟩ 400 80 24) (.begin round :: earlier) x ∧
      Step s x (.take ⟨0⟩ .reload) y ∧ Run s y (.begin round :: later) z ∧
        (∀ now, .take now .reload ∉ later) ∧ z.Settled ∧ z.app.status = some (.info App.reloading) := by
  let trig : Trig ℚ := .rational
  intro s round
  have hround : round.For s := ⟨rfl, rfl⟩
  refine ⟨_, _, _, _, _,
    .cons (.begin hround rfl rfl) <| .cons (.send rfl) <| .cons (.take ⟨0⟩ rfl) <|
      .cons (.take ⟨0⟩ rfl) <|
      .cons (.event ⟨0⟩ (.key ⟨.char 'r', {}⟩)) .nil,
    .take ⟨0⟩ rfl, .cons (.begin hround rfl rfl) <| .cons (.send rfl) <| .cons (.take ⟨0⟩ rfl) .nil,
    fun now h => ?_, ⟨rfl, rfl, ?_⟩, rfl⟩
  · simp [Outcome.announce] at h
  · exact fun _ h => nomatch h

end Exchange

end QueueBoard.Terminal
