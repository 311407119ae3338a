import QueueBoard.Terminal.Input
import Mathlib.Data.List.Basic
/-!
# Paced moves

Reports of the terminal and the beats of its clocks come in, and events are let through. Whatever is no move of
the pointer gets through in order. Between two inputs that are no ticks only the last move does, right before
the second (`MotionFilter.passed_paced`).
-/

namespace QueueBoard.Terminal

/-! ## What comes in -/

/-- A report of the terminal, or a beat of one of the two clocks. -/
inductive Arrival where
  | report (input : RawInput)
  | tick
  | frame
  deriving DecidableEq

/-- The move of the pointer that an event is. -/
def Event.move? : Event → Option Pointer
  | .pointer p => if p.kind = .moved then some p else none
  | _ => none

/-- Whether a move that waits is due before an event: moves and ticks leave it waiting. -/
def Event.isStop (e : Event) : Bool := e.move? = none ∧ e ≠ .tick

namespace Arrival

/-- The event of an arrival, if it means anything. -/
def event? : Arrival → Option Event
  | report input => input.event?
  | tick => some .tick
  | frame => some .frame

/-- The move of the pointer that an arrival is. -/
def move? : Arrival → Option Pointer
  | report (.pointer p) => if p.kind = .moved then some p else none
  | _ => none

/-- What an arrival is besides a move: a key going down, something else of the pointer, a new size, or a beat
of a clock. -/
def other? : Arrival → Option Event
  | report (.key .press k) => some (.key k)
  | report (.pointer p) => if p.kind = .moved then none else some (.pointer p)
  | report (.resize columns rows) => some (.resize columns rows)
  | report _ => none
  | tick => some .tick
  | frame => some .frame

/-- Whether a move that waits is due when an arrival comes. -/
def isStop (a : Arrival) : Bool := a.other?.any (·.isStop)

/-- What an arrival can be. -/
inductive Kind (a : Arrival) : Prop where
  /-- Nothing of meaning. -/
  | ignored (ne_tick : a ≠ tick) (event : a.event? = none) (move : a.move? = none) (other : a.other? = none)
  | move (p : Pointer) (moved : p.kind = .moved) (ne_tick : a ≠ tick) (event : a.event? = some (.pointer p))
    (move : a.move? = some p) (other : a.other? = none)
  | tick (eq : a = tick)
  /-- Anything that moves do not wait for. -/
  | stop (e : Event) (due : e.isStop = true) (event : a.event? = some e) (move : a.move? = none)
    (other : a.other? = some e)

theorem kind (a : Arrival) : a.Kind := by
  match a with
  | tick => exact .tick rfl
  | frame => exact .stop .frame rfl rfl rfl rfl
  | report (.key .press k) => exact .stop (.key k) rfl rfl rfl rfl
  | report (.resize columns rows) => exact .stop (.resize columns rows) rfl rfl rfl rfl
  | report (.key .release _) | report (.key .again _) | report .focus | report .blur | report .paste =>
    exact .ignored Arrival.noConfusion rfl rfl rfl
  | report (.pointer p) =>
    by_cases hp : p.kind = .moved
    · exact .move p hp Arrival.noConfusion rfl (if_pos hp) (if_pos hp)
    · exact .stop (.pointer p) (by simp [Event.isStop, Event.move?, hp]) rfl (if_neg hp) (if_neg hp)

theorem isStop_of_other? {a : Arrival} {e : Event} (h : a.other? = some e) : a.isStop = e.isStop := by
  rw [isStop, h, Option.any_some]

theorem isStop_of_other?_none {a : Arrival} (h : a.other? = none) : a.isStop = false := by
  rw [isStop, h, Option.any_none]

end Arrival

theorem Event.move?_of_isStop {e : Event} (h : e.isStop = true) : e.move? = none := (of_decide_eq_true h).1

theorem Event.isStop_pointer {p : Pointer} (h : p.kind = .moved) : (Event.pointer p).isStop = false := by
  simp [isStop, move?, h]

/-! ## Splitting at stops -/

section

variable {β : Type} {p : β → Bool} {start start' front back rest rest' : List β} {e e' : β}

/-- What stands before the first element of a kind. -/
theorem eq_of_append_first (hstart : ∀ x ∈ start, p x = false) (hstart' : ∀ x ∈ start', p x = false)
    (he : p e = true) (he' : p e' = true) (h : start ++ e :: rest = start' ++ e' :: rest') :
    start = start' ∧ e = e' ∧ rest = rest' := by
  induction start generalizing start' with
  | nil =>
    cases start' with
    | nil => exact ⟨rfl, List.cons.inj h⟩
    | cons x start' =>
      have hx := hstart' x List.mem_cons_self
      rw [← (List.cons.inj h).1, he] at hx
      cases hx
  | cons x start ih =>
    cases start' with
    | nil =>
      have hx := hstart x List.mem_cons_self
      rw [(List.cons.inj h).1, he'] at hx
      cases hx
    | cons x' start' =>
      obtain ⟨rfl, htail⟩ := List.cons.inj h
      obtain ⟨rfl, hsame⟩ := ih (fun y hy => hstart y (List.mem_cons_of_mem _ hy))
        (fun y hy => hstart' y (List.mem_cons_of_mem _ hy)) htail
      exact ⟨rfl, hsame⟩

/-- What ends in an element of a kind goes beyond the first of that kind. -/
theorem exists_append_of_first (hstart : ∀ x ∈ start, p x = false) (h : start ++ e :: rest = front ++ back)
    (hne : front ≠ []) (hlast : ∀ x ∈ front.getLast?, p x = true) :
    ∃ more, front = start ++ e :: more ∧ rest = more ++ back := by
  rw [List.append_cons] at h
  rcases List.append_eq_append_iff.1 h with ⟨more, rfl, rfl⟩ | ⟨more, hfront, rfl⟩
  · exact ⟨more, (List.append_cons ..).symm, rfl⟩
  · rcases List.eq_nil_or_concat' more with rfl | ⟨more, last, rfl⟩
    · exact ⟨[], by rw [hfront, List.append_nil], rfl⟩
    · -- then the end of `front` lies in `start`
      rw [← List.append_assoc] at hfront
      obtain ⟨rfl, -⟩ := List.append_inj' hfront rfl
      have hfalse := hstart _ (List.mem_append_left _ (List.getLast_mem hne))
      rw [hlast _ (List.getLast?_eq_some_getLast hne)] at hfalse
      cases hfalse

end

/-- Arrivals are some without a stop, or such, a stop, and then others. -/
theorem Arrival.stopInduction {P : List Arrival → Prop} (rest : ∀ m, (∀ a ∈ m, a.isStop = false) → P m)
    (stop : ∀ m a others, (∀ a ∈ m, a.isStop = false) → a.isStop = true → P others → P (m ++ a :: others))
    (arrivals : List Arrival) : P arrivals := by
  -- those without a stop that came before are moved into the hypothesis
  have hbefore : ∀ m, (∀ a ∈ m, a.isStop = false) → P (m ++ arrivals) := by
    induction arrivals with
    | nil => exact fun m hm => by rw [List.append_nil]; exact rest m hm
    | cons a others ih =>
      intro m hm
      cases ha : a.isStop with
      | true => exact stop m a others hm ha (ih [] (List.forall_mem_nil _))
      | false =>
        rw [List.append_cons]
        refine ih _ fun b hb => ?_
        rcases List.mem_append.1 hb with hb | hb
        · exact hm b hb
        · rw [List.mem_singleton.1 hb, ha]
  exact hbefore [] (List.forall_mem_nil _)

/-- Arrivals up to the first stop, if there is one. -/
theorem Arrival.exists_first_stop (arrivals : List Arrival) : (∀ a ∈ arrivals, a.isStop = false) ∨
    ∃ between a rest, arrivals = between ++ a :: rest ∧ (∀ a ∈ between, a.isStop = false) ∧ a.isStop = true := by
  induction arrivals using Arrival.stopInduction with
  | rest between hbetween => exact Or.inl hbetween
  | stop between a rest hbetween ha _ => exact Or.inr ⟨between, a, rest, rfl, hbetween, ha⟩

namespace MotionFilter

/-- What is let through of some arrivals in order, and the filter after them. -/
def pump (f : MotionFilter) : List Arrival → List Event × MotionFilter
  | [] => ([], f)
  | a :: rest =>
    match a.event? with
    | none => f.pump rest
    | some event =>
      let (now, f) := f.letThrough event
      let (later, f) := f.pump rest
      (now ++ later, f)

/-- What is let through from the start. -/
def passed (arrivals : List Arrival) : List Event := (pump {} arrivals).1

/-- The last move among some arrivals. -/
def lastMove (arrivals : List Arrival) : Option Pointer := (arrivals.filterMap Arrival.move?).getLast?

/-- What is let through of arrivals that a stop comes after: the ticks, and last of all the last move. -/
def due (between : List Arrival) : List Event :=
  List.replicate (between.count .tick) .tick ++ (lastMove between).toList.map .pointer

variable {f : MotionFilter} {a : Arrival} {arrivals rest between : List Arrival} {e : Event} {p : Pointer}

/-! ## One arrival -/

theorem letThrough_of_isStop (f : MotionFilter) (h : e.isStop = true) :
    f.letThrough e = (f.pending.toList.map .pointer ++ [e], {}) := by
  cases e with
  | pointer p =>
    refine if_neg fun hp => ?_
    rw [Event.isStop_pointer hp] at h
    cases h
  | tick => cases h
  | _ => rfl

theorem pump_of_event?_none (h : a.event? = none) : f.pump (a :: rest) = f.pump rest := by
  rw [pump, h]

theorem pump_move (hp : p.kind = .moved) (h : a.event? = some (.pointer p)) :
    f.pump (a :: rest) = pump ⟨some p⟩ rest := by
  rw [pump, h]
  simp only [letThrough, if_pos hp]
  rfl

theorem pump_tick : f.pump (.tick :: rest) = (.tick :: (f.pump rest).1, (f.pump rest).2) := rfl

theorem pump_stop (he : e.isStop = true) (h : a.event? = some e) :
    f.pump (a :: rest) = (f.pending.toList.map .pointer ++ e :: (pump {} rest).1, (pump {} rest).2) := by
  rw [pump, h]
  simp only [letThrough_of_isStop f he, List.append_assoc, List.singleton_append]

/-! ## From stop to stop -/

theorem lastMove_cons_move (h : a.move? = some p) :
    (lastMove (a :: rest)).or f.pending = (lastMove rest).or (some p) := by
  rw [lastMove, List.filterMap_cons_some h, List.getLast?_cons, lastMove]
  cases (rest.filterMap Arrival.move?).getLast? <;> rfl

theorem lastMove_cons_none (h : a.move? = none) : lastMove (a :: rest) = lastMove rest := by
  rw [lastMove, List.filterMap_cons_none h, lastMove]

/-- Without a stop only ticks get through, and the last move waits. -/
theorem pump_between (f : MotionFilter) (hbetween : ∀ a ∈ between, a.isStop = false) (rest : List Arrival) :
    f.pump (between ++ rest) =
      (List.replicate (between.count .tick) .tick ++ (pump ⟨(lastMove between).or f.pending⟩ rest).1,
        (pump ⟨(lastMove between).or f.pending⟩ rest).2) := by
  induction between generalizing f with
  | nil => rfl
  | cons a between ih =>
    have ha := hbetween a List.mem_cons_self
    have ih := fun f => ih f fun b hb => hbetween b (List.mem_cons_of_mem _ hb)
    cases a.kind with
    | ignored hne hevent hmove =>
      rw [List.cons_append, pump_of_event?_none hevent, ih, lastMove_cons_none hmove, List.count_cons_of_ne hne]
    | move p hp hne hevent hmove =>
      rw [List.cons_append, pump_move hp hevent, ih, lastMove_cons_move hmove, List.count_cons_of_ne hne]
    | tick htick =>
      subst htick
      rw [List.cons_append, pump_tick, ih, lastMove_cons_none rfl, List.count_cons_self, List.replicate_succ]
      rfl
    | stop e he _ _ hother =>
      rw [Arrival.isStop_of_other? hother, he] at ha
      cases ha

theorem passed_between (hbetween : ∀ a ∈ between, a.isStop = false) :
    passed between = List.replicate (between.count .tick) .tick := by
  have hpump := pump_between {} hbetween []
  rw [List.append_nil] at hpump
  rw [passed, hpump]
  exact List.append_nil _

theorem eq_tick_of_mem_passed (hbetween : ∀ a ∈ between, a.isStop = false) (h : e ∈ passed between) :
    e = .tick := by
  rw [passed_between hbetween] at h
  exact List.eq_of_mem_replicate h

theorem exists_of_isStop (h : a.isStop = true) :
    ∃ e, e.isStop = true ∧ a.event? = some e ∧ a.move? = none ∧ a.other? = some e := by
  cases a.kind with
  | ignored _ _ _ hother | move _ _ _ _ _ hother =>
    rw [Arrival.isStop_of_other?_none hother] at h
    cases h
  | tick htick =>
    subst htick
    cases h
  | stop e he hevent hmove hother => exact ⟨e, he, hevent, hmove, hother⟩

/-- A stop lets the last move through right before it, and leaves nothing waiting. -/
theorem passed_stop (hbetween : ∀ a ∈ between, a.isStop = false) (he : e.isStop = true) (h : a.event? = some e) :
    passed (between ++ a :: rest) = due between ++ e :: passed rest := by
  rw [passed, pump_between {} hbetween, pump_stop he h, Option.or_none, ← List.append_assoc]
  rfl

/-! ## What is due at a stop -/

theorem kind_of_lastMove (h : lastMove arrivals = some p) : p.kind = .moved := by
  obtain ⟨a, -, ha⟩ := List.mem_filterMap.1 (List.mem_of_getLast? h)
  cases a.kind with
  | ignored _ _ hmove _ | stop _ _ _ hmove _ =>
    rw [hmove] at ha
    cases ha
  | move q hq _ _ hmove =>
    rw [hmove] at ha
    cases ha
    exact hq
  | tick htick =>
    subst htick
    cases ha

theorem move?_of_mem_lastMove (h : e ∈ (lastMove arrivals).toList.map Event.pointer) :
    ∃ p, lastMove arrivals = some p ∧ e = .pointer p ∧ e.move? = some p := by
  obtain ⟨p, hp, rfl⟩ := List.mem_map.1 h
  rw [Option.mem_toList] at hp
  exact ⟨p, hp, rfl, if_pos (kind_of_lastMove hp)⟩

theorem isStop_of_mem_due (h : e ∈ due between) : e.isStop = false := by
  rcases List.mem_append.1 h with h | h
  · rw [List.eq_of_mem_replicate h]
    rfl
  · obtain ⟨p, hp, rfl, -⟩ := move?_of_mem_lastMove h
    exact Event.isStop_pointer (kind_of_lastMove hp)

/-- Besides moves only ticks come between two stops. -/
theorem others_between (hbetween : ∀ a ∈ between, a.isStop = false) :
    between.filterMap Arrival.other? = List.replicate (between.count .tick) .tick := by
  induction between with
  | nil => rfl
  | cons a between ih =>
    have ih := ih fun b hb => hbetween b (List.mem_cons_of_mem _ hb)
    cases a.kind with
    | ignored hne _ _ hother | move _ _ hne _ _ hother =>
      rw [List.filterMap_cons_none hother, List.count_cons_of_ne hne, ih]
    | tick htick =>
      subst htick
      rw [List.filterMap_cons_some (f := Arrival.other?) rfl, List.count_cons_self, List.replicate_succ, ih]
    | stop e he _ _ hother =>
      have ha := hbetween a List.mem_cons_self
      rw [Arrival.isStop_of_other? hother, he] at ha
      cases ha

theorem filter_due (between : List Arrival) :
    (due between).filter (·.move? = none) = List.replicate (between.count .tick) .tick := by
  have hmoves : ((lastMove between).toList.map Event.pointer).filter (·.move? = none) = [] := by
    refine List.filter_eq_nil_iff.2 fun e he => ?_
    obtain ⟨p, -, -, hmove⟩ := move?_of_mem_lastMove he
    simp [hmove]
  rw [due, List.filter_append, hmoves, List.append_nil, List.filter_replicate_of_pos rfl]

theorem moves_due (between : List Arrival) : (due between).filterMap Event.move? = (lastMove between).toList := by
  rw [due, List.filterMap_append, List.filterMap_replicate_of_none rfl, List.nil_append]
  cases hlast : lastMove between with
  | none => rfl
  | some p => exact List.filterMap_cons_some (if_pos (kind_of_lastMove hlast))

/-! ## What gets through -/

theorem passed_others (arrivals : List Arrival) :
    (passed arrivals).filter (·.move? = none) = arrivals.filterMap Arrival.other? := by
  induction arrivals using Arrival.stopInduction with
  | rest between hbetween => rw [passed_between hbetween, others_between hbetween, List.filter_replicate_of_pos rfl]
  | stop between a rest hbetween ha ih =>
    obtain ⟨e, he, hevent, -, hother⟩ := exists_of_isStop ha
    have hstop : decide (e.move? = none) = true := decide_eq_true (Event.move?_of_isStop he)
    rw [passed_stop hbetween he hevent, List.filter_append, filter_due, List.filter_cons, if_pos hstop, ih,
      List.filterMap_append, others_between hbetween, List.filterMap_cons_some hother]

theorem passed_moves (arrivals : List Arrival) :
    ((passed arrivals).filterMap Event.move?).Sublist (arrivals.filterMap Arrival.move?) := by
  induction arrivals using Arrival.stopInduction with
  | rest between hbetween =>
    rw [passed_between hbetween, List.filterMap_replicate_of_none rfl]
    exact List.nil_sublist _
  | stop between a rest hbetween ha ih =>
    obtain ⟨e, he, hevent, hmove, -⟩ := exists_of_isStop ha
    have hlast : (lastMove between).toList.Sublist (between.filterMap Arrival.move?) := by
      rw [lastMove]
      rcases List.eq_nil_or_concat' (between.filterMap Arrival.move?) with hnil | ⟨earlier, last, hconcat⟩
      · rw [hnil]
        exact List.Sublist.refl _
      · rw [hconcat, List.getLast?_concat]
        exact List.sublist_append_right _ _
    rw [passed_stop hbetween he hevent, List.filterMap_append, moves_due,
      List.filterMap_cons_none (Event.move?_of_isStop he), List.filterMap_append, List.filterMap_cons_none hmove]
    exact hlast.append ih

theorem passed_tick (arrivals : List Arrival) : passed (arrivals ++ [.tick]) = passed arrivals ++ [.tick] := by
  induction arrivals using Arrival.stopInduction with
  | rest between hbetween =>
    have hmore : ∀ a ∈ between ++ [.tick], a.isStop = false := by
      intro a ha
      rcases List.mem_append.1 ha with ha | ha
      · exact hbetween a ha
      · rw [List.mem_singleton.1 ha]
        rfl
    rw [passed_between hmore, passed_between hbetween, List.count_append, List.replicate_add]
    rfl
  | stop between a rest hbetween ha ih =>
    obtain ⟨e, he, hevent, -, -⟩ := exists_of_isStop ha
    rw [List.append_assoc, List.cons_append, passed_stop hbetween he hevent, ih, passed_stop hbetween he hevent,
      List.append_assoc, List.cons_append]

/-- Cutting what gets through behind a stop is cutting what comes behind a stop. -/
theorem passed_cut {front back : List Event} (h : passed arrivals = front ++ back)
    (hfront : ∀ e ∈ front.getLast?, e.isStop = true) :
    ∃ before after, arrivals = before ++ after ∧ (∀ a ∈ before.getLast?, a.isStop = true) ∧
      passed before = front ∧ passed after = back := by
  by_cases hne : front = []
  · subst hne
    exact ⟨[], arrivals, rfl, by simp, rfl, h⟩
  induction arrivals using Arrival.stopInduction generalizing front with
  | rest between hbetween =>
    have hlast := hfront _ (List.getLast?_eq_some_getLast hne)
    have hmem : front.getLast hne ∈ passed between := h ▸ List.mem_append_left _ (List.getLast_mem hne)
    rw [eq_tick_of_mem_passed hbetween hmem] at hlast
    cases hlast
  | stop between a rest hbetween ha ih =>
    obtain ⟨e, he, hevent, -, -⟩ := exists_of_isStop ha
    rw [passed_stop hbetween he hevent] at h
    obtain ⟨more, rfl, hmore⟩ := exists_append_of_first (fun _ => isStop_of_mem_due) h hne hfront
    have hlast : ∀ {β : Type} (xs : List β) (x : β) (ys : List β),
        (xs ++ x :: ys).getLast? = some (ys.getLast?.getD x) := fun xs x ys => by
      rw [List.getLast?_append, List.getLast?_cons]
      rfl
    by_cases hnil : more = []
    · subst hnil
      exact ⟨between ++ [a], rest, List.append_cons .., by simpa using ha, passed_stop hbetween he hevent, hmore⟩
    · have hend : ∀ s ∈ more.getLast?, s.isStop = true := fun s hs => hfront s (by rw [hlast, hs]; rfl)
      obtain ⟨before, after, rfl, hbefore, rfl, hafter⟩ := ih hmore hend hnil
      refine ⟨between ++ a :: before, after, by simp, fun b hb => ?_, passed_stop hbetween he hevent, hafter⟩
      rw [hlast] at hb
      cases hb
      cases hbefore' : before.getLast? with
      | none => exact ha
      | some b => exact hbefore b hbefore'

/-- How events get through of some arrivals. Stops are events that moves do not wait for. -/
structure Paced (arrivals : List Arrival) (output : List Event) : Prop where
  /-- Without moves it is all that came besides moves, in order. -/
  others : output.filter (·.move? = none) = arrivals.filterMap Arrival.other?
  /-- Before a stop, back to the one before it or the start, there are ticks and after these, if one came, the last
  of the moves that came since. -/
  between : ∀ front waited e back, output = front ++ (waited ++ e :: back) →
    (∀ s ∈ front.getLast?, s.isStop = true) → (∀ w ∈ waited, w.isStop = false) → e.isStop = true →
    ∃ before since a after, arrivals = before ++ (since ++ a :: after) ∧
      passed before = front ∧ (∀ b ∈ before.getLast?, b.isStop = true) ∧
      (∀ b ∈ since, b.isStop = false) ∧ a.other? = some e ∧
      waited = List.replicate (since.count .tick) .tick ++
        (since.filterMap Arrival.move?).getLast?.toList.map .pointer
  /-- After the last stop there are ticks only. -/
  held : ∀ front waited, output = front ++ waited → (∀ s ∈ front.getLast?, s.isStop = true) →
    (∀ w ∈ waited, w.isStop = false) → ∀ w ∈ waited, w = .tick
  /-- Moves get through in order, each at most once. -/
  moves : (output.filterMap Event.move?).Sublist (arrivals.filterMap Arrival.move?)
  /-- A tick lets through itself alone. -/
  ticks : passed (arrivals ++ [.tick]) = output ++ [.tick]

/-- **Moves are paced and nothing else is**: for all that comes in. -/
theorem passed_paced (arrivals : List Arrival) : Paced arrivals (passed arrivals) := by
  refine ⟨passed_others arrivals, fun front waited e back h hfront hwaited he => ?_,
    fun front waited h hfront hwaited => ?_, passed_moves arrivals, passed_tick arrivals⟩
  · obtain ⟨before, after, rfl, hbefore, hpassed, hafter⟩ := passed_cut h hfront
    rcases Arrival.exists_first_stop after with hnone | ⟨since, a, rest, rfl, hsince, ha⟩
    · -- without a stop only ticks would have got through
      have hmem : e ∈ passed after := hafter ▸ List.mem_append_right _ List.mem_cons_self
      rw [eq_tick_of_mem_passed hnone hmem] at he
      cases he
    · obtain ⟨e', he', hevent, -, hother⟩ := exists_of_isStop ha
      rw [passed_stop hsince he' hevent] at hafter
      obtain ⟨rfl, rfl, -⟩ := eq_of_append_first (fun _ => isStop_of_mem_due) hwaited he' he hafter
      exact ⟨before, since, a, rest, rfl, hpassed, hbefore, hsince, hother, rfl⟩
  · obtain ⟨before, after, rfl, -, -, rfl⟩ := passed_cut h hfront
    rcases Arrival.exists_first_stop after with hnone | ⟨since, a, rest, rfl, hsince, ha⟩
    · exact fun w => eq_tick_of_mem_passed hnone
    · obtain ⟨e, he, hevent, -, -⟩ := exists_of_isStop ha
      have hfalse := hwaited e (by rw [passed_stop hsince he hevent]; simp)
      rw [he] at hfalse
      cases hfalse

/-- Two moves wait through a tick, and a press of a key releases the second; a third one goes on waiting. -/
example : passed [.report (.pointer ⟨.moved, 1, 1⟩), .tick, .report (.pointer ⟨.moved, 5, 2⟩),
    .report (.key .press ⟨.enter, {}⟩), .report (.pointer ⟨.moved, 7, 7⟩), .report (.key .release ⟨.enter, {}⟩),
    .tick] =
      [.tick, .pointer ⟨.moved, 5, 2⟩, .key ⟨.enter, {}⟩, .tick] := by
  decide

end MotionFilter

end QueueBoard.Terminal
