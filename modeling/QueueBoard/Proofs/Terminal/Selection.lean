import QueueBoard.Proofs.Queue.Visible
import QueueBoard.Proofs.Terminal.Press
/-!
# The selection

The selection is a name, kept apart from the tree. A load selects the root if there is one, keys and clicks
select visible queues, and nothing else selects or changes the tree. So the selection always names a queue of
the present tree, and nothing is selected just if the tree has no root (`QueuesScreen.run_selection`).
-/

namespace QueueBoard

namespace QueueTree

variable {α : Type} {tree : QueueTree α}

theorem rootId?_eq_none_iff : tree.rootId? = none ↔ tree.root? = none := by
  rw [rootId?, idOf?, root?, byName?, List.findIdx?_eq_none_iff, List.find?_eq_none]
  simp

theorem byName?_name_of_root? {queue : QueueNode α} (h : tree.root? = some queue) :
    tree.byName? queue.name = some queue := by
  have hname : queue.name = rootName := by simpa using List.find?_some h
  rwa [hname]

end QueueTree

namespace QueueDashboard

variable {α : Type} [Scalar α]

/-- The selection names a queue of the tree; without a root there is none. -/
structure Selects (d : QueueDashboard α) : Prop where
  none_iff : d.selected = none ↔ d.tree.root? = none
  queue : ∀ name ∈ d.selected, ∃ queue, d.tree.byName? name = some queue

omit [Scalar α] in
theorem Selects.congr {d e : QueueDashboard α} (h : Selects d) (htree : e.tree = d.tree)
    (hselected : e.selected = d.selected) : Selects e :=
  ⟨by rw [htree, hselected]; exact h.none_iff, by rw [htree, hselected]; exact h.queue⟩

variable [Trig α] {d : QueueDashboard α} {name : String}

/-! ## Visible queues -/

/-- A visible queue is one of the tree, which then has a root. -/
theorem Fresh.queue_of_hasRow (h : Fresh d) (hl : d.tree.Linked) (hd : d.tree.Distinct) (hvisible : d.HasRow name) :
    d.tree.root? ≠ none ∧ ∃ queue, d.tree.byName? name = some queue := by
  obtain ⟨row, hrow, rfl⟩ := hvisible
  rw [h.layout_eq] at hrow
  constructor
  · intro hroot
    rw [TreeLayout.compute, QueueTree.rootId?_eq_none_iff.2 hroot] at hrow
    cases hrow
  · obtain ⟨queue, hqueue, hname⟩ := TreeLayout.node_of_mem_compute hl hrow
    exact ⟨queue, hname ▸ QueueTree.byName?_of_get? hd hqueue⟩

theorem Fresh.hasRow_select (h : Fresh d) (hvisible : d.HasRow name) : (d.select name).HasRow name := by
  rw [HasRow, h.layout_eq] at hvisible
  exact hvisible

/-- A queue stays visible when it folds or unfolds. -/
theorem Fresh.hasRow_toggleFold (h : Fresh d) (hl : d.tree.Linked) (hd : d.tree.Distinct)
    (hvisible : d.HasRow name) : (d.toggleFold name).2.HasRow name := by
  rcases d.toggleFold_cases name with htoggle | htoggle <;> rw [htoggle]
  · obtain ⟨row, hrow, rfl⟩ := hvisible
    rw [h.layout_eq] at hrow
    obtain ⟨queue, hqueue, hname⟩ := TreeLayout.node_of_mem_compute hl hrow
    have hreach := (TreeLayout.mem_ids_compute_iff hl).1 (List.mem_map_of_mem hrow)
    have hothers : ∀ other, other ≠ queue.name →
        (d.folded.toggle row.name).contains other = d.folded.contains other := by
      intro other hne
      rw [FoldedSet.contains_toggle, beq_eq_false_iff_ne.2 (hname ▸ hne), Bool.bne_false]
    obtain ⟨after, hafter, hid⟩ := List.mem_map.1
      ((TreeLayout.mem_ids_compute_iff hl).2 (hreach.of_other_folds hd hqueue hothers))
    obtain ⟨queue', hqueue', hname'⟩ := TreeLayout.node_of_mem_compute hl hafter
    rw [hid, hqueue] at hqueue'
    cases hqueue'
    exact ⟨after, hafter, hname'.trans hname.symm⟩
  · exact hvisible

/-- What a click tells is a visible queue, and stays one. -/
theorem Fresh.hasRow_of_click (h : Fresh d) {p : Point α} (hclick : name ∈ (d.click p).1) :
    d.HasRow name ∧ (d.click p).2.HasRow name := by
  unfold click at hclick ⊢
  cases hqueue : d.queueAt p with
  | none =>
    rw [hqueue] at hclick
    cases hclick
  | some queue =>
    rw [hqueue] at hclick
    cases hclick
    exact ⟨h.hasRow_of_queueAt hqueue, h.hasRow_select (h.hasRow_of_queueAt hqueue)⟩

/-- What a double click tells is a visible queue, and stays one. -/
theorem Fresh.hasRow_of_doubleClick (h : Fresh d) (hl : d.tree.Linked) (hd : d.tree.Distinct) {p : Point α}
    (hclick : name ∈ (d.doubleClick p).1) : d.HasRow name ∧ (d.doubleClick p).2.HasRow name := by
  unfold doubleClick at hclick ⊢
  cases hqueue : d.queueAt p with
  | none =>
    rw [hqueue] at hclick
    cases hclick
  | some queue =>
    rw [hqueue] at hclick
    have hname : queue = name := by
      dsimp only at hclick
      split at hclick <;> cases hclick
      rfl
    subst hname
    exact ⟨h.hasRow_of_queueAt hqueue, h.hasRow_toggleFold hl hd (h.hasRow_of_queueAt hqueue)⟩

/-! ## Operations -/

theorem selects_load (d : QueueDashboard α) (records : List (QueueRecord α)) : Selects (d.load records) where
  none_iff := Option.map_eq_none_iff
  queue name hname := by
    obtain ⟨queue, hroot, rfl⟩ := Option.map_eq_some_iff.1 hname
    exact ⟨queue, QueueTree.byName?_name_of_root? hroot⟩

theorem Fresh.selects_select (h : Fresh d) (hl : d.tree.Linked) (hd : d.tree.Distinct) (hvisible : d.HasRow name) :
    Selects (d.select name) := by
  obtain ⟨hroot, queue, hqueue⟩ := h.queue_of_hasRow hl hd hvisible
  refine ⟨iff_of_false nofun hroot, ?_⟩
  rintro _ ⟨⟩
  exact ⟨queue, hqueue⟩

theorem Selects.toggleFold (h : Selects d) (name : String) : Selects (d.toggleFold name).2 := by
  rcases d.toggleFold_cases name with htoggle | htoggle <;> rw [htoggle]
  · exact h.congr rfl rfl
  · exact h

/-- The operations that a screen offers keep the selection in the tree. -/
theorem Fresh.apply_selects (h : Fresh d) (hl : d.tree.Linked) (hd : d.tree.Distinct) (hselects : Selects d)
    {op : Operation α} (hop : op.Offered d) : Selects (d.apply op) := by
  cases op with
  | withPalette palette => exact hselects.congr rfl rfl
  | load records => exact d.selects_load records
  | select name => exact h.selects_select hl hd (hop.select name rfl)
  | toggleFold name => exact hselects.toggleFold name
  | redraw => exact hselects.congr rfl rfl
  | resize width =>
    simp only [apply, resize]
    split
    · exact hselects.congr rfl rfl
    · exact hselects
  | pointerMoved p =>
    rw [apply, pointerMoved, hover_frame]
    exact hselects.congr rfl rfl
  | pointerLeft =>
    rw [apply, pointerLeft_eq, hover_frame]
    exact hselects.congr rfl rfl
  | click p =>
    simp only [apply, click]
    split
    · exact hselects
    · rename_i queue hqueue
      exact h.selects_select hl hd (h.hasRow_of_queueAt hqueue)
  | doubleClick p =>
    simp only [apply, doubleClick]
    split
    · exact hselects
    · exact hselects.toggleFold _

end QueueDashboard

namespace Terminal.QueuesScreen

open QueueDashboard (Fresh Selects)

variable {α : Type} [Scalar α] [Trig α]

/-- Every tree on a screen is that of some snapshot. -/
theorem run_tree (start : Duration) (window : Nat) (inputs : List (Duration × Input α)) :
    ∃ records, (run start window inputs).dashboard.tree = QueueTree.build records := by
  obtain ⟨ops, hrun, -⟩ := run_dashboard start window inputs
  rw [hrun]
  exact QueueDashboard.run_tree _ ops

theorem run_selects (start : Duration) (window : Nat) (inputs : List (Duration × Input α)) :
    Selects (run start window inputs).dashboard := by
  induction inputs using List.reverseRecOn with
  | nil => exact ⟨iff_of_true rfl rfl, nofun⟩
  | append_singleton inputs input ih =>
    rw [run_concat]
    obtain ⟨records, htree⟩ := run_tree start window inputs
    rcases (run start window inputs).step_dashboard input.1 input.2 with hsame | ⟨op, hop, happly⟩
    · exact hsame ▸ ih
    · exact happly ▸ (run_fresh_dashboard start window inputs).apply_selects
        (htree ▸ QueueTree.build_linked records) (htree ▸ QueueTree.build_distinct records) ih hop

/-- **The selection is always valid.** After any inputs nothing is selected just if the tree has no root, and
what is selected is a queue of the tree, whose charts are shown. Neighbors, clicks and double clicks tell
visible queues, visible before and after. -/
theorem run_selection (start : Duration) (window : Nat) (inputs : List (Duration × Input α)) :
    let d := (run start window inputs).dashboard
    (d.selected = none ↔ d.tree.root? = none) ∧
      (∀ name ∈ d.selected, ∃ queue, d.tree.byName? name = some queue ∧
        d.chartPlan = QueueDashboard.plan d.tree queue) ∧
      (∀ offset, ∀ name ∈ d.neighbor offset, d.HasRow name) ∧
      (∀ p, ∀ name ∈ (d.click p).1, d.HasRow name ∧ (d.click p).2.HasRow name) ∧
      ∀ p, ∀ name ∈ (d.doubleClick p).1, d.HasRow name ∧ (d.doubleClick p).2.HasRow name := by
  intro d
  have hfresh : Fresh d := run_fresh_dashboard start window inputs
  have hselects : Selects d := run_selects start window inputs
  obtain ⟨records, htree⟩ := run_tree start window inputs
  have hl : d.tree.Linked := htree ▸ QueueTree.build_linked records
  have hd : d.tree.Distinct := htree ▸ QueueTree.build_distinct records
  refine ⟨hselects.none_iff, fun name hname => ?_, fun offset name hname => d.hasRow_neighbor hname,
    fun p name hname => hfresh.hasRow_of_click hname, fun p name hname => hfresh.hasRow_of_doubleClick hl hd hname⟩
  obtain ⟨queue, hqueue⟩ := hselects.queue name hname
  refine ⟨queue, hqueue, ?_⟩
  rw [QueueDashboard.chartPlan, show d.selected = some name from hname, Option.bind_some, hqueue]

/-- A leaf selected by key, and a double click on the root above it. -/
theorem run_selection_leaf :
    letI : Trig ℚ := .rational
    let records : List (QueueRecord ℚ) := [{ QueueRecord.named "root" with children := ["a"] }, .named "a"]
    let inputs : List (Duration × Input ℚ) :=
      [(⟨0⟩, .action (.queuesLoaded records)), (⟨1⟩, .key ⟨.char 'j', {}⟩)]
    let d := (run ⟨0⟩ 400 inputs).dashboard
    d.selected = some "a" ∧ (∃ queue, d.tree.byName? "a" = some queue ∧
      d.chartPlan = QueueDashboard.plan d.tree queue) ∧
      d.neighbor (-1) = some "root" ∧ d.HasRow "root" ∧
      (d.doubleClick ⟨20, 20⟩).1 = some "root" ∧ (d.doubleClick ⟨20, 20⟩).2.HasRow "root" := by
  let trig : Trig ℚ := .rational
  intro records inputs d
  have hselected : d.selected = some "a" := by decide +kernel
  have hneighbor : d.neighbor (-1) = some "root" := by decide +kernel
  have hdouble : (d.doubleClick ⟨20, 20⟩).1 = some "root" := by decide +kernel
  obtain ⟨-, hplan, habove, -, hvisible⟩ := run_selection ⟨0⟩ 400 inputs
  exact ⟨hselected, hplan "a" hselected, hneighbor, habove (-1) "root" hneighbor, hdouble,
    (hvisible ⟨20, 20⟩ "root" hdouble).2⟩

end Terminal.QueuesScreen

end QueueBoard
