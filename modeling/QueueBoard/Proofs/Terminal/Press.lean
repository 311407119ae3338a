import QueueBoard.Proofs.Dashboard.Pointing
import QueueBoard.Proofs.Queue.Fold
import QueueBoard.Proofs.Terminal.Scroll
/-!
# Presses of the left button

An input does at most one thing to the dashboard of the queue screen (`step_dashboard`), and nothing but
a press on the canvas touches the click tracker. So what the tracker remembers is the press just before
(`last_press`), and a press that folds comes after one on the same cell within the window. If the cell
shows the same picture as then, both were on the queue that folds (`run_press_folds`). The tracker
pairs cells, though: scroll in between, and the second press folds a queue that the first one missed
(`press_folds_another`).
-/

namespace QueueBoard

namespace QueueDashboard

variable {α : Type}

/-- Operations that change the colors. -/
def Operation.recolors : Operation α → Bool
  | .withPalette _ => true
  | _ => false

/-- Operations that a screen offers: none but visible queues are selected by name, and no other colors can be
chosen. -/
structure Operation.Offered (d : QueueDashboard α) (op : Operation α) : Prop where
  recolors : op.recolors = false
  select : ∀ name, op = .select name → d.HasRow name

theorem hasRow_neighbor (d : QueueDashboard α) {offset : Int} {name : String} (h : d.neighbor offset = some name) :
    d.HasRow name := by
  obtain ⟨row, hrow, hname⟩ := Option.map_eq_some_iff.1 h
  exact ⟨row, List.mem_of_getElem? hrow, hname⟩

variable [Scalar α] [Trig α]

theorem apply_palette (d : QueueDashboard α) {op : Operation α} (h : op.recolors = false) :
    (d.apply op).palette = d.palette := by
  have toggled : ∀ name, (d.toggleFold name).2.palette = d.palette := by
    intro name
    rcases d.toggleFold_cases name with h | h <;> rw [h]
    rfl
  cases op with
  | withPalette palette => cases h
  | load records => rfl
  | select name => rfl
  | toggleFold name => exact toggled name
  | redraw => rfl
  | resize width =>
    simp only [apply, resize]
    split <;> rfl
  | pointerMoved pointer =>
    rw [apply, pointerMoved, hover_frame]
  | pointerLeft =>
    rw [apply, pointerLeft_eq, hover_frame]
  | click pointer =>
    simp only [apply, click]
    split <;> rfl
  | doubleClick pointer =>
    simp only [apply, doubleClick]
    split
    · rfl
    · exact toggled _

theorem click_folded (d : QueueDashboard α) (p : Point α) : (d.click p).2.folded = d.folded := by
  unfold click
  split <;> rfl

/-- A double click folds or unfolds no queue but the one under the pointer. -/
theorem queueAt_of_doubleClick {d : QueueDashboard α} {p : Point α} {name : String}
    (h : (d.doubleClick p).2.folded.contains name ≠ d.folded.contains name) : d.queueAt p = some name := by
  unfold doubleClick at h
  split at h
  · exact absurd rfl h
  · rename_i queue hqueue
    rcases d.toggleFold_cases queue with htoggle | htoggle <;> rw [htoggle] at h
    · have hflip : (redraw { d with folded := d.folded.toggle queue }).folded.contains name =
          (d.folded.contains name != (name == queue)) := FoldedSet.contains_toggle _ _ _
      rw [hqueue]
      by_contra hne
      have hother : (name == queue) = false := beq_eq_false_iff_ne.2 fun heq => hne (congrArg some heq.symm)
      rw [hflip, hother, Bool.bne_false] at h
      exact h rfl
    · exact absurd rfl h

end QueueDashboard

namespace Terminal

/-! ## The click tracker -/

namespace ClickTracker

variable {t : ClickTracker} {before time column row : Nat}

theorem register_double (hlast : t.last = some (before, column, row)) (hwindow : time - before ≤ t.window) :
    t.register time column row = (.double, { t with last := none }) := by
  simp [register, hlast, hwindow]

theorem register_single (h : ∀ before, t.last = some (before, column, row) → t.window < time - before) :
    t.register time column row = (.single, { t with last := some (time, column, row) }) := by
  unfold register
  split
  · rename_i before c r hlast
    refine if_neg fun hpair => ?_
    obtain ⟨rfl, rfl, hwindow⟩ := hpair
    exact absurd (h before hlast) (Nat.not_lt.2 hwindow)
  · rfl

/-- A click is the second on its cell within the window, or one to remember. -/
theorem register_cases (t : ClickTracker) (time column row : Nat) :
    (∃ before, t.last = some (before, column, row) ∧ time - before ≤ t.window ∧
      t.register time column row = (.double, { t with last := none })) ∨
    t.register time column row = (.single, { t with last := some (time, column, row) }) := by
  by_cases h : ∃ before, t.last = some (before, column, row) ∧ time - before ≤ t.window
  · obtain ⟨before, hlast, hwindow⟩ := h
    exact Or.inl ⟨before, hlast, hwindow, register_double hlast hwindow⟩
  · refine Or.inr (register_single fun before hlast => ?_)
    exact Nat.lt_of_not_le fun hwindow => h ⟨before, hlast, hwindow⟩

end ClickTracker

variable {α : Type} [Scalar α] [Trig α]

open QueueDashboard (Fresh Operation)

/-- The left button going down on a cell. -/
def Input.press (column row : Nat) : Input α := .pointer ⟨.leftDown, column, row⟩

namespace QueuesScreen

variable {s t : QueuesScreen α}

/-! ## Inputs and the dashboard -/

theorem selectNeighbor_dashboard (s : QueuesScreen α) (offset : Int) :
    (s.selectNeighbor offset).dashboard = s.dashboard ∨
      ∃ op : Operation α, op.Offered s.dashboard ∧ (s.selectNeighbor offset).dashboard = s.dashboard.apply op := by
  unfold selectNeighbor
  split
  · rename_i name hname
    refine Or.inr ⟨.select name, ⟨rfl, ?_⟩, rfl⟩
    rintro _ ⟨⟩
    exact s.dashboard.hasRow_neighbor hname
  · exact Or.inl rfl

theorem toggleSelected_dashboard (s : QueuesScreen α) :
    s.toggleSelected.dashboard = s.dashboard ∨
      ∃ op : Operation α, op.Offered s.dashboard ∧ s.toggleSelected.dashboard = s.dashboard.apply op := by
  unfold toggleSelected
  split
  · exact Or.inr ⟨.toggleFold _, ⟨rfl, by simp⟩, rfl⟩
  · exact Or.inl rfl

/-- An input does at most one thing to the dashboard, and that is one that is offered. -/
theorem step_dashboard (s : QueuesScreen α) (now : Duration) (input : Input α) :
    (s.step (now, input)).dashboard = s.dashboard ∨
      ∃ op : Operation α, op.Offered s.dashboard ∧ (s.step (now, input)).dashboard = s.dashboard.apply op := by
  cases input with
  | key k =>
    simp only [step, onKey]
    split
    · exact Or.inl rfl
    · split
      · rename_i command hcommand
        unfold command? at hcommand
        split at hcommand <;> cases hcommand
        all_goals first | exact s.selectNeighbor_dashboard _ | exact s.toggleSelected_dashboard
      · exact Or.inl rfl
  | pointer p =>
    have hovered : ∀ point, ∃ op : Operation α, op.Offered s.dashboard ∧
        (s.hover point).dashboard = s.dashboard.apply op := by
      intro point
      cases point with
      | some q => exact ⟨.pointerMoved q, ⟨rfl, by simp⟩, rfl⟩
      | none => exact ⟨.pointerLeft, ⟨rfl, by simp⟩, rfl⟩
    simp only [step, onPointer]
    split
    · exact Or.inr (hovered _)
    · exact Or.inr (hovered _)
    · split
      · rename_i q _
        simp only [press, sync]
        split
        · exact Or.inr ⟨.click q, ⟨rfl, by simp⟩, rfl⟩
        · exact Or.inr ⟨.doubleClick q, ⟨rfl, by simp⟩, rfl⟩
      · exact Or.inl rfl
    all_goals exact Or.inl rfl
  | action action =>
    cases action with
    | queuesLoaded records => exact Or.inr ⟨.load records, ⟨rfl, by simp⟩, rfl⟩
    | resize columns rows => exact Or.inr ⟨.resize _, ⟨rfl, by simp⟩, rfl⟩
    | _ => exact Or.inl rfl
  | draw area cells => exact Or.inl rfl

theorem run_concat (start : Duration) (window : Nat) (inputs : List (Duration × Input α))
    (i : Duration × Input α) : run start window (inputs ++ [i]) = (run start window inputs).step i :=
  List.foldl_concat ..

/-- What a screen shows is what its dashboard shows after some operations. -/
theorem run_dashboard (start : Duration) (window : Nat) (inputs : List (Duration × Input α)) :
    ∃ ops : List (Operation α),
      (run start window inputs).dashboard = QueueDashboard.run (canvasWidth 80) ops ∧
      (run start window inputs).dashboard.palette = .queues := by
  induction inputs using List.reverseRecOn with
  | nil => exact ⟨[], rfl, rfl⟩
  | append_singleton inputs input ih =>
    obtain ⟨ops, hrun, hpalette⟩ := ih
    rw [run_concat]
    rcases (run start window inputs).step_dashboard input.1 input.2 with hsame | ⟨op, hop, happly⟩
    · exact ⟨ops, hsame.trans hrun, (congrArg QueueDashboard.palette hsame).trans hpalette⟩
    · refine ⟨ops ++ [op], ?_, ?_⟩
      · rw [QueueDashboard.run_append, ← hrun]
        exact happly
      · exact (congrArg QueueDashboard.palette happly).trans
          ((QueueDashboard.apply_palette _ hop.recolors).trans hpalette)

theorem run_fresh_dashboard (start : Duration) (window : Nat) (inputs : List (Duration × Input α)) :
    Fresh (run start window inputs).dashboard := by
  obtain ⟨ops, hrun, -⟩ := run_dashboard start window inputs
  rw [hrun]
  exact QueueDashboard.fresh_run _ ops

/-! ## Presses -/

/-- The queue that a cell shows. -/
def queueUnder (s : QueuesScreen α) (column row : Nat) : Option String :=
  (s.viewport.toScene s.canvas column row).bind s.dashboard.queueAt

/-- Whether an input is a press on the canvas. -/
def pressedBy (s : QueuesScreen α) : Input α → Bool
  | .pointer ⟨.leftDown, column, row⟩ => s.canvas.contains column row
  | _ => false

/-- Whether one of some inputs is a press on the canvas. -/
def pressedByAny (s : QueuesScreen α) : List (Duration × Input α) → Bool
  | [] => false
  | i :: rest => s.pressedBy i.2 || (s.step i).pressedByAny rest

theorem pressedByAny_concat (s : QueuesScreen α) (inputs : List (Duration × Input α))
    (i : Duration × Input α) :
    s.pressedByAny (inputs ++ [i]) = (s.pressedByAny inputs || (inputs.foldl step s).pressedBy i.2) := by
  induction inputs generalizing s with
  | nil => simp [pressedByAny]
  | cons first rest ih => rw [List.cons_append, pressedByAny, pressedByAny, ih, List.foldl_cons, Bool.or_assoc]

omit [Scalar α] [Trig α] in
theorem eq_press_of_pressedBy {input : Input α} (h : s.pressedBy input = true) :
    ∃ column row, input = .press column row ∧ s.canvas.contains column row = true := by
  unfold pressedBy at h
  split at h
  · exact ⟨_, _, rfl, h⟩
  · cases h

omit [Trig α] in
theorem exists_toScene {column row : Nat} (h : s.canvas.contains column row = true) :
    ∃ p, s.viewport.toScene s.canvas column row = some p := ⟨_, if_pos h⟩

section

variable {now : Duration} {column row : Nat} {p : Point α} {clicks : ClickTracker}

theorem step_press_single (hp : s.viewport.toScene s.canvas column row = some p)
    (h : s.clicks.register now.nanos column row = (.single, clicks)) :
    s.step (now, .press column row) = { s with clicks, dashboard := (s.dashboard.click p).2 }.sync now := by
  simp only [step, Input.press, onPointer, hp, press, h]

theorem step_press_double (hp : s.viewport.toScene s.canvas column row = some p)
    (h : s.clicks.register now.nanos column row = (.double, clicks)) :
    s.step (now, .press column row) =
      { s with clicks, dashboard := (s.dashboard.doubleClick p).2 }.sync now := by
  simp only [step, Input.press, onPointer, hp, press, h]

theorem step_press_aside (h : s.canvas.contains column row = false) :
    s.step (now, .press column row) = s := by
  have hmiss : s.viewport.toScene s.canvas column row = none := if_neg (by rw [h]; exact Bool.false_ne_true)
  simp only [step, Input.press, onPointer, hmiss]

theorem clicks_step_press (h : s.canvas.contains column row = true) :
    (s.step (now, .press column row)).clicks = (s.clicks.register now.nanos column row).2 := by
  obtain ⟨p, hp⟩ := exists_toScene h
  rcases s.clicks.register_cases now.nanos column row with ⟨_, -, -, hregister⟩ | hregister
  · rw [step_press_double hp hregister, hregister]
    rfl
  · rw [step_press_single hp hregister, hregister]
    rfl

end

/-- Any other input leaves the tracker alone. -/
theorem clicks_step {now : Duration} {input : Input α} (h : s.pressedBy input = false) :
    (s.step (now, input)).clicks = s.clicks := by
  cases input with
  | key k =>
    simp only [step, onKey]
    split
    · rfl
    · split
      · rename_i command hcommand
        unfold command? at hcommand
        split at hcommand <;> cases hcommand
        all_goals
          simp only [sync, selectNeighbor, toggleSelected]
          split <;> rfl
      · rfl
  | pointer p =>
    obtain ⟨kind, column, row⟩ := p
    cases kind with
    | leftDown => exact congrArg clicks (step_press_aside h)
    | moved | dragged =>
      simp only [step, onPointer, sync, hover]
      split <;> rfl
    | _ => rfl
  | action action => cases action <;> rfl
  | draw area cells => rfl

theorem run_window (start : Duration) (window : Nat) (inputs : List (Duration × Input α)) :
    (run start window inputs).clicks.window = window := by
  induction inputs using List.reverseRecOn with
  | nil => rfl
  | append_singleton inputs i ih =>
    obtain ⟨now, input⟩ := i
    rw [run_concat]
    cases h : (run start window inputs).pressedBy input with
    | true =>
      obtain ⟨column, row, rfl, hcanvas⟩ := eq_press_of_pressedBy h
      rw [clicks_step_press hcanvas]
      rcases ClickTracker.register_cases (run start window inputs).clicks now.nanos column row with
        ⟨_, -, -, hregister⟩ | hregister <;> rw [hregister] <;> exact ih
    | false =>
      rw [clicks_step h]
      exact ih

/-- **What the tracker remembers is the press just before**, and that one was a single click. -/
theorem last_press {start : Duration} {window : Nat} {inputs : List (Duration × Input α)}
    {time column row : Nat} (h : (run start window inputs).clicks.last = some (time, column, row)) :
    ∃ earlier between before, inputs = earlier ++ (before, .press column row) :: between ∧
      before.nanos = time ∧ (run start window earlier).canvas.contains column row = true ∧
      ((run start window earlier).clicks.register time column row).1 = .single ∧
      ((run start window earlier).step (before, .press column row)).pressedByAny between = false := by
  induction inputs using List.reverseRecOn with
  | nil => cases h
  | append_singleton inputs i ih =>
    obtain ⟨now, input⟩ := i
    rw [run_concat] at h
    cases hpress : (run start window inputs).pressedBy input with
    | true =>
      obtain ⟨c, r, rfl, hcanvas⟩ := eq_press_of_pressedBy hpress
      rw [clicks_step_press hcanvas] at h
      rcases ClickTracker.register_cases (run start window inputs).clicks now.nanos c r with
        ⟨_, -, -, hregister⟩ | hregister
      · rw [hregister] at h
        cases h
      · have hsingle := congrArg Prod.fst hregister
        rw [hregister] at h
        cases h
        exact ⟨inputs, [], now, rfl, rfl, hcanvas, hsingle, rfl⟩
    | false =>
      rw [clicks_step hpress] at h
      obtain ⟨earlier, between, before, rfl, htime, hcanvas, hsingle, hnone⟩ := ih h
      refine ⟨earlier, between ++ [(now, input)], before, by simp, htime, hcanvas, hsingle, ?_⟩
      rw [pressedByAny_concat, hnone, Bool.false_or]
      rw [run, List.foldl_append] at hpress
      exact hpress

/-- The screens show the same picture in the same place, but for the pointer's marks. -/
structure SameView (s t : QueuesScreen α) : Prop where
  viewport : s.viewport = t.viewport
  canvas : s.canvas = t.canvas
  width : s.dashboard.width = t.dashboard.width
  tree : s.dashboard.tree = t.dashboard.tree
  folded : s.dashboard.folded = t.dashboard.folded
  selected : s.dashboard.selected = t.dashboard.selected

/-- A press that flips a fold is the second click on its cell, which shows the queue that folds. -/
theorem double_of_press_folds {now : Duration} {column row : Nat} {name : String}
    (h : (s.step (now, .press column row)).dashboard.folded.contains name ≠
      s.dashboard.folded.contains name) :
    s.queueUnder column row = some name ∧
      ∃ time, s.clicks.last = some (time, column, row) ∧ now.nanos - time ≤ s.clicks.window := by
  have hcanvas : s.canvas.contains column row = true := by
    by_contra haside
    exact h (by rw [step_press_aside (Bool.eq_false_iff.2 haside)])
  obtain ⟨p, hp⟩ := exists_toScene hcanvas
  rcases s.clicks.register_cases now.nanos column row with ⟨time, hlast, hwindow, hregister⟩ | hregister
  · rw [step_press_double hp hregister] at h
    refine ⟨?_, time, hlast, hwindow⟩
    rw [queueUnder, hp]
    exact QueueDashboard.queueAt_of_doubleClick h
  · rw [step_press_single hp hregister] at h
    exact absurd (congrArg (FoldedSet.contains · name) (s.dashboard.click_folded p)) h

/-- If after a single click the picture stays as it is, then a queue that its cell shows later was there
before the click. -/
theorem queueUnder_of_sameView {first second : QueuesScreen α} {now : Duration} {column row : Nat}
    {name : String} (hfirst : Fresh first.dashboard) (hsecond : Fresh second.dashboard)
    (hpalette : first.dashboard.palette = second.dashboard.palette)
    (hcanvas : first.canvas.contains column row = true)
    (hsingle : (first.clicks.register now.nanos column row).1 = .single)
    (hview : SameView (first.step (now, .press column row)) second)
    (hqueue : second.queueUnder column row = some name) : first.queueUnder column row = some name := by
  obtain ⟨p, hp⟩ := exists_toScene hcanvas
  have hstep := step_press_single hp (Prod.ext hsingle rfl)
  rw [hstep] at hview
  have hsame : second.viewport.toScene second.canvas column row = some p := by
    rw [← hview.viewport, ← hview.canvas]
    exact hp
  rw [queueUnder, hsame, Option.bind_some] at hqueue
  rw [queueUnder, hp, Option.bind_some]
  cases hunder : first.dashboard.queueAt p with
  | none =>
    -- nothing was selected, so the picture is still that of the first click
    have hclick : (first.dashboard.click p).2 = first.dashboard := by rw [QueueDashboard.click, hunder]
    have halike : QueueDashboard.Alike { first.dashboard with hovered := second.dashboard.hovered }
        second.dashboard :=
      ⟨hclick ▸ hview.width, hpalette, hclick ▸ hview.tree, hclick ▸ hview.folded, hclick ▸ hview.selected, rfl⟩
    rw [← hunder, hfirst.queueAt_congr hsecond halike, hqueue]
  | some queue =>
    -- the selection may have changed the charts, but not the queue below them
    have hclick : (first.dashboard.click p).2 = first.dashboard.select queue := by
      rw [QueueDashboard.click, hunder]
    rw [hclick] at hview
    rw [hfirst.queueAt_unique hsecond hview.tree hview.folded hunder hqueue]

/-- **A mouse fold needs two presses.** After any inputs, if a press flips the fold of a queue, then its cell
shows this queue, and the press just before was on the same cell and at most the window earlier. If since
then the picture is the same in the same place, that press was on this queue too. -/
theorem run_press_folds (start : Duration) (window : Nat) (inputs : List (Duration × Input α))
    (now : Duration) (column row : Nat) (name : String)
    (hfold : ((run start window inputs).step (now, .press column row)).dashboard.folded.contains name ≠
      (run start window inputs).dashboard.folded.contains name) :
    let second := run start window inputs
    second.queueUnder column row = some name ∧
      ∃ earlier between before, inputs = earlier ++ (before, .press column row) :: between ∧
        let first := run start window earlier
        let pressed := first.step (before, .press column row)
        first.canvas.contains column row = true ∧ pressed.pressedByAny between = false ∧
          now.nanos - before.nanos ≤ window ∧
          (SameView pressed second → first.queueUnder column row = some name) := by
  intro second
  obtain ⟨hqueue, time, hlast, hwindow⟩ := double_of_press_folds hfold
  obtain ⟨earlier, between, before, hinputs, rfl, hcanvas, hsingle, hnone⟩ := last_press hlast
  rw [run_window] at hwindow
  obtain ⟨_, -, hpalette⟩ := run_dashboard start window inputs
  obtain ⟨_, -, hpalette'⟩ := run_dashboard start window earlier
  exact ⟨hqueue, earlier, between, before, hinputs, hcanvas, hnone, hwindow, fun hview =>
    queueUnder_of_sameView (run_fresh_dashboard start window earlier) (run_fresh_dashboard start window inputs)
      (hpalette'.trans hpalette.symm) hcanvas hsingle hview hqueue⟩

/-- Two presses on the root, between which the pointer moves away, fold the root. -/
theorem run_press_folds_root :
    letI : Trig ℚ := .rational
    let records : List (QueueRecord ℚ) := [{ QueueRecord.named "root" with children := ["a"] }, .named "a"]
    let earlier : List (Duration × Input ℚ) :=
      [(⟨0⟩, .action (.queuesLoaded records)), (⟨1⟩, .draw { width := 80, height := 24 } (.blank 80 24))]
    let inputs := earlier ++ [(⟨100⟩, .press 3 2), (⟨200⟩, .pointer ⟨.moved, 50, 10⟩)]
    ((run ⟨0⟩ 400 inputs).step (⟨500⟩, .press 3 2)).dashboard.folded.contains "root" ≠
        (run ⟨0⟩ 400 inputs).dashboard.folded.contains "root" ∧
      (run ⟨0⟩ 400 inputs).queueUnder 3 2 = some "root" ∧
      (run ⟨0⟩ 400 earlier).queueUnder 3 2 = some "root" := by
  let trig : Trig ℚ := .rational
  intro records earlier inputs
  obtain ⟨hqueue, before, between, time, hinputs, -, -, -, hfirst⟩ :=
    run_press_folds ⟨0⟩ 400 inputs ⟨500⟩ 3 2 "root" (by decide +kernel)
  -- there is one press among the inputs
  have hsplit : before = earlier ∧ time = ⟨100⟩ := by
    clear hfirst
    rcases before with _ | ⟨load, _ | ⟨draw, _ | ⟨press, _ | ⟨move, before⟩⟩⟩⟩ <;>
      simp [inputs, earlier, Input.press] at hinputs
    obtain ⟨rfl, rfl, rfl, rfl⟩ := hinputs
    exact ⟨rfl, rfl⟩
  obtain ⟨rfl, rfl⟩ := hsplit
  refine ⟨by decide +kernel, hqueue, hfirst ?_⟩
  exact ⟨by decide +kernel, by decide +kernel, by decide +kernel, by decide +kernel, by decide +kernel,
    by decide +kernel⟩

/-- A press on one queue, two turns of the wheel, and a press on the same cell, which by then shows another
queue: that one folds. -/
theorem press_folds_another :
    letI : Trig ℚ := .rational
    let record (name : String) (children : List String) : QueueRecord ℚ :=
      { QueueRecord.named name with children }
    let earlier : List (Duration × Input ℚ) :=
      [(⟨0⟩, .action (.queuesLoaded [record "root" ["a", "b", "c", "d"], record "a" [], record "b" ["e"],
          record "e" [], record "c" [], record "d" []])),
        (⟨0⟩, .draw { width := 80, height := 24 } (.blank 80 24)),
        (⟨0⟩, .pointer ⟨.scrollDown, 7, 5⟩), (⟨0⟩, .pointer ⟨.scrollDown, 7, 5⟩)]
    let between : List (Duration × Input ℚ) :=
      [(⟨100⟩, .pointer ⟨.scrollUp, 7, 5⟩), (⟨200⟩, .pointer ⟨.scrollUp, 7, 5⟩)]
    let first := run ⟨0⟩ 400 earlier
    let second := run ⟨0⟩ 400 (earlier ++ (⟨0⟩, .press 7 5) :: between)
    let folded := second.step (⟨300⟩, .press 7 5)
    first.canvas.contains 7 5 = true ∧ (first.step (⟨0⟩, .press 7 5)).pressedByAny between = false ∧
      folded.dashboard.folded.contains "b" ≠ second.dashboard.folded.contains "b" ∧
      first.queueUnder 7 5 = some "d" := by
  let trig : Trig ℚ := .rational
  intro record earlier between first second folded
  have hfold : folded.dashboard.folded.contains "b" ≠ second.dashboard.folded.contains "b" := by
    decide +kernel
  have hother : first.queueUnder 7 5 = some "d" := by decide +kernel
  exact ⟨by decide +kernel, rfl, hfold, hother⟩

end QueuesScreen

end Terminal

end QueueBoard
