import QueueBoard.Proofs.Scalar.Rational
import QueueBoard.Proofs.Terminal.Exchange
/-!
# Failures of a round

The line that follows from loaded queues goes to the end of the channel, behind all that the loader has sent
by then. So if the queues are taken before the loader sends that the metrics cannot be read, the failure is
told last and stays in the status bar; otherwise the line about the queues hides it (`Exchange.run_round`).
-/

namespace QueueBoard.Terminal

variable {α : Type} {action : Action α} {s : Sources}

/-- A failure is sent before loaded queues are taken. -/
def FailureFirst (moves : List (Move α)) : Prop :=
  ∃ message now records, [.send (.loadFailed message), .take now (.queuesLoaded records)].Sublist moves

namespace FailureFirst

variable {move : Move α} {moves : List (Move α)}

theorem cons_iff (h : ∀ message, move ≠ .send (.loadFailed message)) :
    FailureFirst (move :: moves) ↔ FailureFirst moves := by
  constructor
  · rintro ⟨message, now, records, hsub⟩
    cases hsub with
    | cons _ hsub => exact ⟨message, now, records, hsub⟩
    | cons_cons => exact absurd rfl (h message)
  · rintro ⟨message, now, records, hsub⟩
    exact ⟨message, now, records, hsub.cons _⟩

theorem of_take {message : String} {now : Duration} {records : List (QueueRecord α)}
    (h : .take now (.queuesLoaded records) ∈ moves) : FailureFirst (.send (.loadFailed message) :: moves) :=
  ⟨message, now, records, (List.singleton_sublist.2 h).cons_cons _⟩

theorem exists_take (h : FailureFirst moves) : ∃ now records, .take now (.queuesLoaded records) ∈ moves := by
  obtain ⟨message, now, records, hsub⟩ := h
  exact ⟨now, records, hsub.subset (List.mem_cons_of_mem _ List.mem_cons_self)⟩

end FailureFirst

namespace Exchange

variable {x y z : Exchange α} {move : Move α} {moves : List (Move α)}

/-- What the status bar tells once the messages in flight have been taken, if nothing follows from them. -/
def outlook (x : Exchange α) : Option Status :=
  x.inFlight.foldl (fun status action => action.told.or status) x.app.status

/-- The number of loaded queues in flight. -/
def loads (x : Exchange α) : Nat := x.inFlight.countP Action.isQueues

/-- The loader is not asked for another round. -/
structure LastRound (x : Exchange α) : Prop where
  requests : x.requests = 0
  reload : .reload ∉ x.inFlight

theorem outlook_of_last {actions : List (Action α)} {status : Status} (h : x.inFlight = actions ++ [action])
    (htold : action.told = some status) : x.outlook = some status := by
  rw [outlook, h, List.foldl_append, List.foldl_cons, List.foldl_nil, htold, Option.some_or]

theorem foldl_told_of_quiet {actions : List (Action α)} (h : ∀ action ∈ actions, action.quiet = true)
    (status : Option Status) : actions.foldl (fun status action => action.told.or status) status = status := by
  induction actions with
  | nil => rfl
  | cons action rest ih =>
    rw [List.foldl_cons, Action.told_of_quiet (h action List.mem_cons_self), Option.none_or]
    exact ih fun _ hmem => h _ (List.mem_cons_of_mem _ hmem)

theorem countP_isQueues_of_quiet {actions : List (Action α)} (h : ∀ action ∈ actions, action.quiet = true) :
    actions.countP Action.isQueues = 0 :=
  List.countP_eq_zero.2 fun action hmem => by
    rw [Action.isQueues_of_quiet (h action hmem)]
    exact Bool.false_ne_true

theorem Settled.inFlight_quiet (h : x.Settled) : ∀ action ∈ x.inFlight, action.quiet = true := by
  rw [inFlight, h.unsent, List.append_nil]
  exact h.channel

variable [Scalar α] [Trig α]

/-! ## One move of the last round -/

theorem Step.lastRound (h : Step s x move y) (hx : x.LastRound)
    (huser : ∀ now event, move = .event now event → event.byUser = false) : y.LastRound := by
  have hreload : .reload ∉ y.inFlight := by
    intro hmem
    rcases h.mem_inFlight hmem with hbefore | ⟨o, -, -, hround⟩ | ⟨_, _, _, -, -, hnotify⟩ | hquiet |
      ⟨now, event, hmove, hbyUser, -⟩
    · exact hx.reload hbefore
    · exact o.reload_not_mem_messages hround
    · cases hnotify
    · cases hquiet
    · rw [huser now event hmove] at hbyUser
      cases hbyUser
  refine ⟨?_, hreload⟩
  cases h with
  | begin hfor hrequests =>
    rw [hx.requests] at hrequests
    cases hrequests
  | @take now action channel hchannel =>
    have hhead : action.isReload = false := by
      cases action with
      | reload => exact absurd (by rw [inFlight, hchannel]; exact List.mem_cons_self) hx.reload
      | _ => rfl
    dsimp only
    rw [hhead, if_neg Bool.false_ne_true, hx.requests]
  | _ => exact hx.requests

/-- In the last round, a move sends a message, takes queues, from which a line follows, or changes neither
what is to be sent nor what is to be told. -/
theorem Step.cases_of_lastRound (h : Step s x move y) (hx : x.LastRound)
    (huser : ∀ now event, move = .event now event → event.byUser = false) :
    (∃ action, move = .send action ∧ x.unsent = action :: y.unsent ∧ y.inFlight = x.inFlight ∧
      y.outlook = x.outlook) ∨
    (∃ now records message channel, move = .take now (.queuesLoaded records) ∧
      x.channel = .queuesLoaded records :: channel ∧ y.channel = channel ++ [.notify message] ∧
      y.unsent = x.unsent) ∨
    (∀ action, move ≠ .send action) ∧ (∀ now records, move ≠ .take now (.queuesLoaded records)) ∧
      y.unsent = x.unsent ∧ y.loads = x.loads ∧ y.outlook = x.outlook := by
  cases h with
  | begin hfor hrequests =>
    rw [hx.requests] at hrequests
    cases hrequests
  | @send action unsent hunsent =>
    have hflight : (x.channel ++ [action]) ++ unsent = x.inFlight := by
      rw [inFlight, hunsent, List.append_assoc, List.singleton_append]
    refine Or.inl ⟨action, rfl, hunsent, hflight, ?_⟩
    rw [outlook, outlook, ← hflight]
    rfl
  | @take now action channel hchannel =>
    cases hqueues : action.isQueues with
    | true =>
      cases action with
      | queuesLoaded records =>
        obtain ⟨count, hcount⟩ := x.app.process_queues now records
        exact Or.inr (Or.inl ⟨now, records, _, channel, rfl, hchannel, by rw [hcount], rfl⟩)
      | _ => cases hqueues
    | false =>
      have hfollow := x.app.process_of_not_queues now hqueues
      refine Or.inr (Or.inr ⟨fun _ heq => ?_, fun _ _ heq => ?_, rfl, ?_, ?_⟩)
      · cases heq
      · cases heq
        cases hqueues
      · rw [loads, loads, inFlight, inFlight, hchannel, hfollow, List.append_nil, List.cons_append,
          List.countP_cons_of_neg (by rw [hqueues]; exact Bool.false_ne_true)]
      · rw [outlook, outlook, inFlight, inFlight, hchannel, hfollow, List.append_nil, List.cons_append,
          List.foldl_cons, App.process_status]
  | @event now event =>
    have hasked : ∀ action ∈ (x.app.onEvent now event).1.toList, action.quiet = true := by
      intro action haction
      refine (App.quiet_or_reload_of_onEvent (Option.mem_toList.1 haction)).resolve_right fun hbyUser => ?_
      rw [huser now event rfl] at hbyUser
      cases hbyUser.1
    refine Or.inr (Or.inr ⟨fun _ heq => ?_, fun _ _ heq => ?_, rfl, ?_, ?_⟩)
    · cases heq
    · cases heq
    · simp only [loads, inFlight, List.countP_append, countP_isQueues_of_quiet hasked, Nat.add_zero]
    · simp only [outlook, inFlight, List.foldl_append, foldl_told_of_quiet hasked, App.onEvent_status]
  | draw =>
    refine Or.inr (Or.inr ⟨fun _ heq => ?_, fun _ _ heq => ?_, rfl, rfl, ?_⟩)
    · cases heq
    · cases heq
    · rw [outlook, outlook, App.draw_status]
      rfl

/-! ## The rest of the last round -/

/-- A run of the last round in which there is neither a key nor the pointer, to its end. -/
structure Run.ToEnd (s : Sources) (x : Exchange α) (moves : List (Move α)) (z : Exchange α) : Prop where
  run : Run s x moves z
  lastRound : x.LastRound
  byUser : ∀ now event, .event now event ∈ moves → event.byUser = false
  settled : z.Settled

theorem Run.ToEnd.tail (h : Run.ToEnd s x (move :: moves) z) :
    ∃ y, Step s x move y ∧ Run.ToEnd s y moves z ∧ ∀ now event, move = .event now event → event.byUser = false := by
  obtain ⟨hrun, hlast, hbyUser, hz⟩ := h
  cases hrun with
  | @cons _ y _ _ _ hstep hrun =>
    have huser : ∀ now event, move = .event now event → event.byUser = false :=
      fun now event heq => hbyUser now event (heq ▸ List.mem_cons_self)
    exact ⟨y, hstep, ⟨hrun, hstep.lastRound hlast huser,
      fun now event hmem => hbyUser now event (List.mem_cons_of_mem _ hmem), hz⟩, huser⟩

/-- Without queues in flight, the status bar ends up telling what was to be told. -/
theorem Run.ToEnd.of_loads_zero (h : Run.ToEnd s x moves z) (hloads : x.loads = 0) :
    z.app.status = x.outlook ∧ ∀ now records, .take now (.queuesLoaded records) ∉ moves := by
  induction moves generalizing x with
  | nil =>
    obtain ⟨hrun, -, -, hz⟩ := h
    cases hrun
    exact ⟨(foldl_told_of_quiet hz.inFlight_quiet _).symm, fun _ _ => List.not_mem_nil⟩
  | cons move moves ih =>
    obtain ⟨y, hstep, htail, huser⟩ := h.tail
    rcases hstep.cases_of_lastRound h.lastRound huser with ⟨action, rfl, -, hflight, houtlook⟩ |
      ⟨now, records, message, channel, rfl, hchannel, -, -⟩ | ⟨-, hmove, -, hsame, houtlook⟩
    · obtain ⟨hstatus, htake⟩ := ih htail (by rw [loads, hflight]; exact hloads)
      exact ⟨hstatus.trans houtlook, fun now records hmem => htake now records (by simpa using hmem)⟩
    · rw [loads, inFlight, hchannel, List.countP_append, List.countP_cons_of_pos rfl] at hloads
      omega
    · obtain ⟨hstatus, htake⟩ := ih htail (hsame.trans hloads)
      refine ⟨hstatus.trans houtlook, fun now records hmem => ?_⟩
      rcases List.mem_cons.1 hmem with heq | hmem
      · exact hmove now records heq.symm
      · exact htake now records hmem

omit [Scalar α] [Trig α] in
theorem loads_cons {records : List (QueueRecord α)} {channel : List (Action α)}
    (hchannel : x.channel = .queuesLoaded records :: channel) :
    x.loads = (channel ++ x.unsent).countP Action.isQueues + 1 := by
  rw [loads, inFlight, hchannel, List.cons_append, List.countP_cons_of_pos rfl]

/-- Queues taken with one load in flight are the last ones. -/
theorem Run.ToEnd.of_take (h : Run.ToEnd s y moves z) {records : List (QueueRecord α)}
    {channel : List (Action α)} {message : String} (hloads : x.loads = 1)
    (hbefore : x.channel = .queuesLoaded records :: channel) (hafter : y.channel = channel ++ [.notify message])
    (hunsent : y.unsent = x.unsent) :
    z.app.status = y.outlook ∧ ∀ now records, .take now (.queuesLoaded records) ∉ moves := by
  refine h.of_loads_zero ?_
  rw [loads_cons hbefore, List.countP_append] at hloads
  rw [loads, inFlight, hafter, hunsent, List.countP_append, List.countP_append,
    List.countP_cons_of_neg Bool.false_ne_true, List.countP_nil]
  omega

/-- With all sent and queues in flight, the line about the queues is told last. -/
theorem Run.ToEnd.of_sent (h : Run.ToEnd s x moves z) (hsent : x.unsent = []) (hloads : x.loads = 1) :
    (∃ now records, .take now (.queuesLoaded records) ∈ moves) ∧
      ∃ message, z.app.status = some (.info message) := by
  induction moves generalizing x with
  | nil =>
    obtain ⟨hrun, -, -, hz⟩ := h
    cases hrun
    rw [loads, countP_isQueues_of_quiet hz.inFlight_quiet] at hloads
    cases hloads
  | cons move moves ih =>
    obtain ⟨y, hstep, htail, huser⟩ := h.tail
    rcases hstep.cases_of_lastRound h.lastRound huser with ⟨action, -, hunsent, -, -⟩ |
      ⟨now, records, message, channel, rfl, hbefore, hafter, hunsent⟩ | ⟨-, -, hunsent, hsame, -⟩
    · rw [hsent] at hunsent
      cases hunsent
    · refine ⟨⟨now, records, List.mem_cons_self⟩, message, ?_⟩
      rw [(htail.of_take hloads hbefore hafter hunsent).1]
      exact outlook_of_last (by rw [inFlight, hunsent, hsent, List.append_nil, hafter]) rfl
    · obtain ⟨⟨now, records, htake⟩, hstatus⟩ := ih htail (hunsent.trans hsent) (hsame.trans hloads)
      exact ⟨⟨now, records, List.mem_cons_of_mem _ htake⟩, hstatus⟩

/-- With a failure to be sent last and queues in flight, it depends on which of the two comes first. -/
theorem Run.ToEnd.of_unsent (h : Run.ToEnd s x moves z) {before : List (Action α)} {message : String}
    (hunsent : x.unsent = before ++ [.loadFailed message]) (hbefore : ∀ action ∈ before, action.isQueues = true)
    (hloads : x.loads = 1) :
    (¬ FailureFirst moves → z.app.status = some (.error message)) ∧
      (FailureFirst moves → ∃ line, z.app.status = some (.info line)) := by
  induction moves generalizing x before with
  | nil =>
    obtain ⟨hrun, -, -, hz⟩ := h
    cases hrun
    rw [hz.unsent] at hunsent
    exact absurd hunsent.symm (List.append_ne_nil_of_right_ne_nil _ (List.cons_ne_nil _ _))
  | cons move moves ih =>
    obtain ⟨y, hstep, htail, huser⟩ := h.tail
    rcases hstep.cases_of_lastRound h.lastRound huser with ⟨action, rfl, hsend, hflight, -⟩ |
      ⟨now, records, line, channel, rfl, hchannel, hafter, hrest⟩ | ⟨hsend, -, hrest, hsame, -⟩
    · have hloads' : y.loads = 1 := by rw [loads, hflight]; exact hloads
      rw [hunsent] at hsend
      cases before with
      | nil =>
        -- the failure goes behind the queues
        obtain ⟨rfl, hsent⟩ := List.cons.inj hsend
        obtain ⟨⟨now, records, htake⟩, hstatus⟩ := htail.of_sent hsent.symm hloads'
        exact ⟨fun hnot => absurd (FailureFirst.of_take htake) hnot, fun _ => hstatus⟩
      | cons first before =>
        obtain ⟨rfl, hsent⟩ := List.cons.inj hsend
        have hqueues := hbefore first List.mem_cons_self
        rw [FailureFirst.cons_iff (by rintro message ⟨⟩; cases hqueues)]
        exact ih htail hsent.symm (fun action hmem => hbefore action (List.mem_cons_of_mem _ hmem)) hloads'
    · -- the line about the queues goes before the failure
      obtain ⟨hstatus, htake⟩ := htail.of_take hloads hchannel hafter hrest
      have hlast : y.inFlight = (y.channel ++ before) ++ [.loadFailed message] := by
        rw [inFlight, hrest, hunsent, List.append_assoc]
      rw [FailureFirst.cons_iff (by rintro _ ⟨⟩), hstatus]
      refine ⟨fun _ => outlook_of_last hlast rfl, fun hfirst => ?_⟩
      obtain ⟨now, records, hmem⟩ := hfirst.exists_take
      exact absurd hmem (htake now records)
    · rw [FailureFirst.cons_iff fun message => hsend _]
      exact ih htail (hrest.trans hunsent) hbefore (hsame.trans hloads)

/-- **A failure of a round stays in the status bar unless it is sent before loaded queues are taken.** Let a
round begin with nothing but quiet messages in the channel and no other round to come, and let all that it
sends be taken, with all that follows, and neither a key nor the pointer between. If a snapshot could not be
read, the status bar tells so in the end; but if a failure was sent while loaded queues were still to be taken,
it tells something else. -/
theorem run_round {o : Outcome α} (hbegin : Step s x (.begin o) y) (halone : y.requests = 0)
    (hquiet : ∀ action ∈ y.channel, action.quiet = true) (hrun : Run s y moves z)
    (huser : ∀ now event, .event now event ∈ moves → event.byUser = false) (hz : z.Settled)
    (hfailed : o.failures ≠ []) :
    (¬ FailureFirst moves → ∃ message ∈ o.failures, z.app.status = some (.error message)) ∧
      (FailureFirst moves → ∃ line, z.app.status = some (.info line)) := by
  have hunsent := hbegin.of_begin.2
  have hloads : y.loads = o.messages.countP Action.isQueues := by
    rw [loads, inFlight, hunsent, List.countP_append, countP_isQueues_of_quiet hquiet, Nat.zero_add]
  have houtlook : y.outlook = o.messages.foldl (fun status action => action.told.or status) y.app.status := by
    rw [outlook, inFlight, hunsent, List.foldl_append, foldl_told_of_quiet hquiet]
  have hend : Run.ToEnd s y moves z := by
    refine ⟨hrun, ⟨halone, fun hmem => ?_⟩, huser, hz⟩
    rcases List.mem_append.1 hmem with hmem | hmem
    · cases hquiet _ hmem
    · exact o.reload_not_mem_messages (hunsent ▸ hmem)
  -- without loaded queues nothing is told but what the loader sends
  have hsent : o.messages.countP Action.isQueues = 0 →
      (∃ message ∈ o.failures, o.messages.foldl (fun status action => action.told.or status) y.app.status =
        some (.error message)) →
      (¬ FailureFirst moves → ∃ message ∈ o.failures, z.app.status = some (.error message)) ∧
        (FailureFirst moves → ∃ line, z.app.status = some (.info line)) := by
    rintro hnone ⟨message, hmessage, htold⟩
    obtain ⟨hstatus, htake⟩ := hend.of_loads_zero (hloads.trans hnone)
    refine ⟨fun _ => ⟨message, hmessage, by rw [hstatus, houtlook, htold]⟩, fun hfirst => ?_⟩
    obtain ⟨now, records, hmem⟩ := hfirst.exists_take
    exact absurd hmem (htake now records)
  obtain ⟨queues, metrics⟩ := o
  rcases queues with _ | message | records
  · rcases metrics with _ | message | metrics
    · exact absurd rfl hfailed
    · exact hsent rfl ⟨message, List.mem_cons_self, rfl⟩
    · exact absurd rfl hfailed
  · rcases metrics with _ | message' | metrics
    · exact hsent rfl ⟨message, List.mem_cons_self, rfl⟩
    · exact hsent rfl ⟨message', List.mem_cons_of_mem _ List.mem_cons_self, rfl⟩
    · exact hsent rfl ⟨message, List.mem_cons_self, rfl⟩
  · rcases metrics with _ | message | metrics
    · exact absurd rfl hfailed
    · have hround : y.unsent = [.queuesLoaded records] ++ [.loadFailed message] := hunsent
      have hpending := hend.of_unsent hround
        (fun action hmem => by rw [List.mem_singleton.1 hmem]; rfl) (hloads.trans rfl)
      exact ⟨fun hnot => ⟨message, List.mem_cons_self, hpending.1 hnot⟩, hpending.2⟩
    · exact absurd rfl hfailed

/-- Queues that are taken before the loader sends that it could not read the metrics. -/
theorem run_round_in_turn :
    letI : Trig ℚ := .rational
    let s : Sources := { queues := some "queues.json", metrics := some "metrics.json" }
    let round : Outcome ℚ := ⟨some (.ok []), some (.error "no metrics")⟩
    ∃ y rest z, Step s (.start ⟨0⟩ 400 80 24) (.begin round) y ∧
      Run s y (.send (.queuesLoaded []) :: .take ⟨0⟩ (.resize 80 24) :: .take ⟨0⟩ (.queuesLoaded []) ::
        .send (.loadFailed "no metrics") :: rest) z ∧
      z.Settled ∧ ∃ message ∈ round.failures, z.app.status = some (.error message) := by
  let trig : Trig ℚ := .rational
  intro s round
  obtain ⟨y, hbegin, halone, hunsent, hchannel⟩ : ∃ y, Step s (.start ⟨0⟩ 400 80 24) (.begin round) y ∧
      y.requests = 0 ∧ y.unsent = [.queuesLoaded [], .loadFailed "no metrics"] ∧ y.channel = [.resize 80 24] :=
    ⟨_, .begin ⟨rfl, rfl⟩ rfl rfl, rfl, rfl, rfl⟩
  have hrun : ∃ rest z, Run s y (.send (.queuesLoaded []) :: .take ⟨0⟩ (.resize 80 24) ::
      .take ⟨0⟩ (.queuesLoaded []) :: .send (.loadFailed "no metrics") :: rest) z ∧ z.Settled ∧
      (∀ now records, .take now (.queuesLoaded records) ∉ rest) ∧ ∀ now event, .event now event ∉ rest := by
    refine ⟨_, _, .cons (.send hunsent) <| .cons (.take ⟨0⟩ (by rw [hchannel]; rfl)) <| .cons (.take ⟨0⟩ rfl) <|
      .cons (.send rfl) <| .cons (.take ⟨0⟩ rfl) <| .cons (.take ⟨0⟩ rfl) .nil, ⟨?_, rfl, ?_⟩,
      fun now records h => ?_, fun now event h => ?_⟩
    · exact halone
    · exact fun _ h => nomatch h
    · simp at h
    · simp at h
  obtain ⟨rest, z, hrun, hz, htake, hevent⟩ := hrun
  refine ⟨y, rest, z, hbegin, hrun, hz, ?_⟩
  refine (run_round hbegin halone ?_ hrun ?_ hz (List.cons_ne_nil _ _)).1 ?_
  · rw [hchannel]
    exact fun action hmem => by rw [List.mem_singleton.1 hmem]; rfl
  · intro now event hmem
    exact absurd (by simpa using hmem) (hevent now event)
  · rw [FailureFirst.cons_iff (by rintro _ ⟨⟩), FailureFirst.cons_iff (by rintro _ ⟨⟩),
      FailureFirst.cons_iff (by rintro _ ⟨⟩)]
    intro hfirst
    obtain ⟨now, records, hmem⟩ := hfirst.exists_take
    exact htake now records (by simpa using hmem)

/-- The loader is faster: it has sent everything when the queues are taken, and the line about them hides
that there are no metrics. -/
theorem failure_hidden :
    letI : Trig ℚ := .rational
    let s : Sources := { queues := some "queues.json", metrics := some "metrics.json" }
    let round : Outcome ℚ := ⟨some (.ok []), some (.error "no metrics")⟩
    ∃ y moves z, Step s (.start ⟨0⟩ 400 80 24) (.begin round) y ∧ y.requests = 0 ∧
      (∀ action ∈ y.channel, action.quiet = true) ∧ Run s y moves z ∧
      (∀ now event, .event now event ∉ moves) ∧ z.Settled ∧ round.failures ≠ [] ∧
      ¬ ∃ message, z.app.status = some (.error message) := by
  let trig : Trig ℚ := .rational
  intro s round
  refine ⟨_, _, _, .begin ⟨rfl, rfl⟩ rfl rfl, rfl, ?_, .cons (.send rfl) <| .cons (.send rfl) <|
    .cons (.take ⟨0⟩ rfl) <| .cons (.take ⟨0⟩ rfl) <| .cons (.take ⟨0⟩ rfl) <| .cons (.take ⟨0⟩ rfl) .nil,
    fun now event h => ?_, ⟨rfl, rfl, ?_⟩, List.cons_ne_nil _ _, ?_⟩
  · exact fun action hmem => by rw [List.mem_singleton.1 hmem]; rfl
  · simp at h
  · exact fun _ h => nomatch h
  · rintro ⟨message, ⟨⟩⟩

end Exchange

end QueueBoard.Terminal
