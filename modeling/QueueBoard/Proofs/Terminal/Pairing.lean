import QueueBoard.Proofs.Terminal.Press
import Mathlib.Algebra.Group.Nat.Even
import Mathlib.Data.List.SplitBy
/-!
# Clicks in pairs

A new tracker takes clicks one after another, at any times. Split them into runs in which every click is close
to the one before it. Then the second, the fourth and every other even click of a run are the double clicks
(`ClickTracker.answers_pairedUp`).
-/

namespace QueueBoard.Terminal

/-- A click on a cell. -/
structure Press where
  time : Nat
  column : Nat
  row : Nat
  deriving DecidableEq

/-- Whether the next click is on the same cell and at most the window later. Times may run backwards. -/
def Press.close (window : Nat) (p next : Press) : Bool :=
  p.column = next.column ∧ p.row = next.row ∧ next.time - p.time ≤ window

namespace ClickTracker

/-- What clicks turn out to be, taken one after another. -/
def answers (t : ClickTracker) : List Press → List Click
  | [] => []
  | p :: rest =>
    let (click, t) := t.register p.time p.column p.row
    click :: t.answers rest

/-- The answers for a run of close clicks: a double click at every even place. -/
def everyOther (run : List Press) : List Click :=
  run.mapIdx fun i _ => if Even (i + 1) then .double else .single

theorem everyOther_cons_cons (p q : Press) (run : List Press) :
    everyOther (p :: q :: run) = .single :: .double :: everyOther run := by
  have hplace : ∀ i, Even (i + 1 + 1 + 1) ↔ Even (i + 1) := fun i => by
    rw [Nat.even_add_one, Nat.even_add_one, not_not]
  simp only [everyOther, List.mapIdx_cons, hplace]
  rfl

/-! ## One click -/

/-- The click that is remembered is close to the next one. -/
def Awaits (t : ClickTracker) (next : Press) : Prop :=
  ∃ p : Press, t.last = some (p.time, p.column, p.row) ∧ p.close t.window next = true

variable {t : ClickTracker} {p next : Press}

theorem register_of_awaits (h : t.Awaits next) :
    t.register next.time next.column next.row = (.double, { t with last := none }) := by
  obtain ⟨p, hlast, hclose⟩ := h
  obtain ⟨hcolumn, hrow, hwindow⟩ := of_decide_eq_true hclose
  exact register_double (hcolumn ▸ hrow ▸ hlast) hwindow

theorem register_of_not_awaits (h : ¬ t.Awaits next) :
    t.register next.time next.column next.row =
      (.single, { t with last := some (next.time, next.column, next.row) }) := by
  refine register_single fun before hlast => Nat.lt_of_not_le fun hwindow => h ?_
  exact ⟨⟨before, next.column, next.row⟩, hlast, decide_eq_true ⟨rfl, rfl, hwindow⟩⟩

theorem not_awaits_of_last_none (h : t.last = none) : ¬ t.Awaits next := by
  rintro ⟨p, hlast, -⟩
  rw [h] at hlast
  cases hlast

theorem awaits_remembered (t : ClickTracker) (p next : Press) :
    ({ t with last := some (p.time, p.column, p.row) } : ClickTracker).Awaits next ↔
      p.close t.window next = true := by
  refine ⟨?_, fun hclose => ⟨p, rfl, hclose⟩⟩
  rintro ⟨⟨time, column, row⟩, hlast, hclose⟩
  cases hlast
  exact hclose

/-! ## Runs -/

/-- Of a run of close clicks every other one is a double click, and what is remembered after it does not go
with a click that is not close to its last. -/
theorem answers_run (t : ClickTracker) (run rest : List Press)
    (hclose : run.IsChain fun p q => p.close t.window q)
    (hfirst : ∀ p ∈ (run ++ rest).head?, ¬ t.Awaits p)
    (hrest : ∀ p ∈ run.getLast?, ∀ next ∈ rest.head?, p.close t.window next = false) :
    ∃ t' : ClickTracker, t.answers (run ++ rest) = everyOther run ++ t'.answers rest ∧
      t'.window = t.window ∧ ∀ next ∈ rest.head?, ¬ t'.Awaits next := by
  match run with
  | [] => exact ⟨t, rfl, rfl, hfirst⟩
  | [p] =>
    refine ⟨{ t with last := some (p.time, p.column, p.row) }, ?_, rfl, fun next hnext => ?_⟩
    · rw [List.singleton_append, answers, register_of_not_awaits (hfirst p rfl)]
      rfl
    · rw [awaits_remembered, hrest p rfl next hnext]
      exact Bool.false_ne_true
  | p :: q :: run =>
    obtain ⟨hpq, hrun⟩ := List.isChain_cons_cons.1 hclose
    have hpair : t.answers (p :: q :: (run ++ rest)) =
        .single :: .double :: { t with last := none }.answers (run ++ rest) := by
      rw [answers, register_of_not_awaits (hfirst p rfl)]
      dsimp only
      rw [answers, register_of_awaits ((awaits_remembered t p q).2 hpq)]
    have hlast : ∀ r ∈ run.getLast?, r ∈ (p :: q :: run).getLast? := by
      intro r hr
      cases run with
      | nil => cases hr
      | cons first rest => simpa using hr
    obtain ⟨t', hanswers, hwindow, hnext⟩ := answers_run { t with last := none } run rest hrun.of_cons
      (fun _ _ => not_awaits_of_last_none rfl) (fun r hr => hrest r (hlast r hr))
    refine ⟨t', ?_, hwindow, hnext⟩
    rw [List.cons_append, List.cons_append, hpair, hanswers, everyOther_cons_cons]
    rfl

/-- Each run begins anew, as its first click does not go with the run before. -/
theorem answers_flatten (t : ClickTracker) (runs : List (List Press)) (hne : [] ∉ runs)
    (hclose : ∀ run ∈ runs, run.IsChain fun p q => p.close t.window q)
    (hapart : runs.IsChain fun run next => ∃ hrun hnext,
      (run.getLast hrun).close t.window (next.head hnext) = false)
    (hfirst : ∀ p ∈ runs.flatten.head?, ¬ t.Awaits p) :
    t.answers runs.flatten = runs.flatMap everyOther := by
  induction runs generalizing t with
  | nil => rfl
  | cons run runs ih =>
    have hrest : ∀ p ∈ run.getLast?, ∀ next ∈ runs.flatten.head?, p.close t.window next = false := by
      intro p hp next hnext
      cases runs with
      | nil => cases hnext
      | cons following others =>
        obtain ⟨hrun, hfollowing, hfar⟩ := (List.isChain_cons_cons.1 hapart).1
        rw [List.flatten_cons, List.head?_append_of_ne_nil _ hfollowing] at hnext
        rwa [List.getLast_of_mem_getLast? hp, List.head_of_mem_head? hnext] at hfar
    obtain ⟨t', hanswers, hwindow, hnext⟩ :=
      answers_run t run runs.flatten (hclose run List.mem_cons_self) hfirst hrest
    rw [List.flatten_cons, hanswers, List.flatMap_cons,
      ih t' (fun h => hne (List.mem_cons_of_mem _ h))
        (by rw [hwindow]; exact fun r hr => hclose r (List.mem_cons_of_mem _ hr))
        (by rw [hwindow]; exact hapart.of_cons) hnext]

theorem answers_splitBy (window : Nat) (presses : List Press) :
    ({ window } : ClickTracker).answers presses = (presses.splitBy (Press.close window)).flatMap everyOther := by
  have hruns := answers_flatten { window } (presses.splitBy (Press.close window))
    (List.nil_notMem_splitBy _ _) (fun _ => List.isChain_of_mem_splitBy)
    (List.isChain_getLast_head_splitBy _ _) (fun _ _ => not_awaits_of_last_none rfl)
  rwa [List.flatten_splitBy] at hruns

/-! ## Pairs -/

/-- A double click has a partner: what was remembered at the start, or the click before it, a single one. -/
theorem partner_of_double {presses : List Press} {i : Nat} (h : (t.answers presses)[i]? = some .double) :
    ∃ q, presses[i]? = some q ∧ (i = 0 → t.Awaits q) ∧ ∀ j, i = j + 1 →
      ∃ p, presses[j]? = some p ∧ (t.answers presses)[j]? = some .single ∧ p.close t.window q = true := by
  induction presses generalizing t i with
  | nil => cases h
  | cons first rest ih =>
    by_cases hfirst : t.Awaits first
    · -- the first click is a double one and nothing is remembered of it
      rw [answers, register_of_awaits hfirst] at h ⊢
      cases i with
      | zero => exact ⟨first, rfl, fun _ => hfirst, fun j hj => absurd hj (Nat.succ_ne_zero j).symm⟩
      | succ i =>
        obtain ⟨q, hq, hstart, hpartner⟩ := ih h
        cases i with
        | zero => exact absurd (hstart rfl) (not_awaits_of_last_none rfl)
        | succ i =>
          refine ⟨q, hq, fun hzero => absurd hzero (Nat.succ_ne_zero _), fun j hj => ?_⟩
          obtain rfl := Nat.succ.inj hj
          exact hpartner i rfl
    · rw [answers, register_of_not_awaits hfirst] at h ⊢
      cases i with
      | zero => cases h
      | succ i =>
        obtain ⟨q, hq, hstart, hpartner⟩ := ih h
        refine ⟨q, hq, fun hzero => absurd hzero (Nat.succ_ne_zero _), fun j hj => ?_⟩
        obtain rfl := Nat.succ.inj hj
        cases i with
        | zero => exact ⟨first, rfl, rfl, (awaits_remembered t first q).1 (hstart rfl)⟩
        | succ i => exact hpartner i rfl

/-- The click at `k` is one of the two that the double click at `i` is made of. -/
def InPair (answers : List Click) (i k : Nat) : Prop := answers[i]? = some .double ∧ (k = i ∨ k + 1 = i)

/-- How clicks are answered. -/
structure PairedUp (window : Nat) (presses : List Press) (answers : List Click) : Prop where
  /-- In each of the longest runs of close clicks every other one is a double click. -/
  runs : answers = (presses.splitBy (Press.close window)).flatMap everyOther
  /-- A double click is the second of two close clicks, the first of them a single one. -/
  partner : ∀ i, answers[i]? = some .double → ∃ j p q, i = j + 1 ∧ answers[j]? = some .single ∧
    presses[j]? = some p ∧ presses[i]? = some q ∧ p.close window q = true
  /-- No click belongs to two pairs. -/
  once : ∀ i j k, InPair answers i k → InPair answers j k → i = j
  /-- No double click follows on another. -/
  apart : ∀ i, answers[i]? = some .double → answers[i + 1]? ≠ some .double

/-- **Clicks pair up**: whatever the window and the clicks, a new tracker answers double for the even places of
each run of close clicks, so that no click is in two pairs. -/
theorem answers_pairedUp (window : Nat) (presses : List Press) :
    PairedUp window presses (({ window } : ClickTracker).answers presses) := by
  have hpartner : ∀ i, (({ window } : ClickTracker).answers presses)[i]? = some .double →
      ∃ j p q, i = j + 1 ∧ (({ window } : ClickTracker).answers presses)[j]? = some .single ∧
        presses[j]? = some p ∧ presses[i]? = some q ∧ p.close window q = true := by
    intro i hi
    obtain ⟨q, hq, hstart, hbefore⟩ := partner_of_double hi
    cases i with
    | zero => exact absurd (hstart rfl) (not_awaits_of_last_none rfl)
    | succ j =>
      obtain ⟨p, hp, hsingle, hclose⟩ := hbefore j rfl
      exact ⟨j, p, q, rfl, hsingle, hp, hq, hclose⟩
  have hapart : ∀ i, (({ window } : ClickTracker).answers presses)[i]? = some .double →
      (({ window } : ClickTracker).answers presses)[i + 1]? ≠ some .double := by
    intro i hi hnext
    obtain ⟨j, p, q, hj, hsingle, -⟩ := hpartner (i + 1) hnext
    obtain rfl := Nat.succ.inj hj
    rw [hi] at hsingle
    cases hsingle
  refine ⟨answers_splitBy window presses, hpartner, ?_, hapart⟩
  rintro i j k ⟨hi, hki⟩ ⟨hj, hkj⟩
  by_contra hne
  -- two pairs with a click in common belong to double clicks next to each other
  have hneighbors : j = i + 1 ∨ i = j + 1 := by omega
  rcases hneighbors with rfl | rfl
  · exact hapart i hi hj
  · exact hapart j hj hi

/-- Four close clicks, the third at an earlier time, and a late one. -/
example : ({ window := 400 } : ClickTracker).answers
    [⟨0, 3, 4⟩, ⟨200, 3, 4⟩, ⟨100, 3, 4⟩, ⟨500, 3, 4⟩, ⟨901, 3, 4⟩] =
      [.single, .double, .single, .double, .single] := by
  decide

end ClickTracker

end QueueBoard.Terminal
