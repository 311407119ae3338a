import QueueBoard.Proofs.Queue.Building
import QueueBoard.Proofs.Scalar.Rational
import QueueBoard.Dashboard.Queues
/-!
# The labels of charts

What the labels of the charts of a queue are in terms of the records alone. The chart of the queue itself has
every label once. The two charts of its children have the children in declared order, one label for each time a
child is declared; so queues are charted twice just if the selected queue declares one of them twice
(`QueueDashboard.chartPlan_labels`).
-/

namespace QueueBoard

variable {α : Type} {records : List (QueueRecord α)} {node : QueueNode α}

/-! ## Queues of a built tree -/

namespace QueueTree

/-- The children of a node have in order the names that it declares. -/
theorem names_childrenOf (h : node ∈ (build records).nodes) :
    ((build records).childrenOf node).map (·.name) = declared records node.record := by
  have hnamed : ((build records).childrenOf node).map (fun child => some child.name) =
      (declared records node.record).map some := by
    calc ((build records).childrenOf node).map (fun child => some child.name)
        = (((build records).childrenOf node).map some).map (Option.map (·.name)) := by
          rw [List.map_map]
          rfl
      _ = node.children.map (build records).nameAt? := by
          rw [childrenOf_eq (build_linked records) h, List.map_map]
          rfl
      _ = (declared records node.record).map some := nameAt?_children h
  refine List.map_injective_iff.2 (Option.some_injective String) ?_
  rw [← hnamed, List.map_map]
  rfl

/-- A declared name is that of a queue of the tree. -/
theorem exists_of_mem_declared {r : QueueRecord α} {name : String} (h : name ∈ declared records r) :
    ∃ queue ∈ (build records).nodes, queue.name = name := by
  rw [declared, List.mem_filter, decide_eq_true_iff] at h
  have hname : name ∈ (build records).nodes.map (·.name) := by
    rw [names_build, List.mem_eraseDups]
    exact h.2.2
  exact List.mem_map.1 hname

theorem names_leaves_nodup (records : List (QueueRecord α)) : ((build records).leaves.map (·.name)).Nodup :=
  (build_distinct records).sublist (List.filter_sublist.map _)

end QueueTree

/-! ## Charts -/

/-- The labels of a chart, in order. -/
def PlannedChart.labels (chart : PlannedChart α) : List String := chart.data.map (·.label)

namespace QueueDashboard

variable {d : QueueDashboard α}

theorem labels_queueDonut (title : String) (nodes : List (QueueNode α)) (value : QueueRecord α → α) :
    (queueDonut title nodes value).labels = nodes.map (·.name) := by
  rw [PlannedChart.labels, queueDonut, List.map_map]
  rfl

variable [Scalar α]

/-- The charts of a queue: one of its own with every label once, and two of its children if it lists any. -/
theorem plan_labels (h : node ∈ (QueueTree.build records).nodes) :
    ∃ own children, plan (QueueTree.build records) node = own :: children ∧ own.labels.Nodup ∧
      children.map (·.title) =
        (if node.record.isLeaf then [] else ["Children Capacities", "Children Used Capacities"]) ∧
      ∀ chart ∈ children, chart.labels = QueueTree.declared records node.record := by
  refine ⟨_, _, rfl, ?_, ?_, ?_⟩
  · split
    · rw [labels_queueDonut]
      exact QueueTree.names_leaves_nodup records
    · have hlabels : (capacityBars node.record).labels = ["Cap", "MaxCap", "UsedCap"] := rfl
      rw [hlabels]
      decide
  · split <;> rfl
  · intro chart hchart
    split at hchart
    · cases hchart
    · rw [← QueueTree.names_childrenOf h]
      rcases List.mem_pair.1 hchart with rfl | rfl <;> exact labels_queueDonut ..

/-- **A chart counts a queue twice just if the selected queue declares it twice.** Nothing of the tree selected,
there are no charts. Else there is one of the selected queue with every label once and, if it lists children, two
of these: their labels are the declared children in order, names of queues of the tree. All charts have every
label once just if no child that is another queue is declared twice. -/
theorem chartPlan_labels (h : d.tree = QueueTree.build records) :
    (d.selected.bind d.tree.byName? = none → d.chartPlan = []) ∧
    ∀ queue, d.selected.bind d.tree.byName? = some queue →
      ∃ own children, d.chartPlan = own :: children ∧ own.labels.Nodup ∧
        children.map (·.title) =
          (if queue.record.isLeaf then [] else ["Children Capacities", "Children Used Capacities"]) ∧
        (∀ chart ∈ children, chart.labels = QueueTree.declared records queue.record) ∧
        (∀ label ∈ QueueTree.declared records queue.record, ∃ child ∈ d.tree.nodes, child.name = label) ∧
        ((∀ chart ∈ d.chartPlan, chart.labels.Nodup) ↔ (QueueTree.declared records queue.record).Nodup) := by
  refine ⟨fun hnone => by rw [chartPlan, hnone], fun queue hqueue => ?_⟩
  have hnode : queue ∈ (QueueTree.build records).nodes := by
    obtain ⟨name, -, hname⟩ := Option.bind_eq_some_iff.1 hqueue
    exact h ▸ List.mem_of_find?_eq_some hname
  obtain ⟨own, children, hplan, hown, htitles, hlabels⟩ := plan_labels hnode
  have hcharts : d.chartPlan = own :: children := by rw [chartPlan, hqueue, h, ← hplan]
  refine ⟨own, children, hcharts, hown, htitles, hlabels, ?_, ?_⟩
  · rw [h]
    exact fun label => QueueTree.exists_of_mem_declared
  · rw [hcharts, List.forall_mem_cons, and_iff_right hown]
    constructor
    · intro hdistinct
      cases hleaf : queue.record.isLeaf with
      | true =>
        have hnone : QueueTree.declared records queue.record = [] := by
          rw [QueueTree.declared, List.isEmpty_iff.1 hleaf]
          rfl
        rw [hnone]
        exact List.nodup_nil
      | false =>
        rw [hleaf] at htitles
        obtain ⟨chart, rest, hchildren, -⟩ := List.map_eq_cons_iff.1 htitles
        have hchart : chart ∈ children := hchildren ▸ List.mem_cons_self
        exact hlabels chart hchart ▸ hdistinct chart hchart
    · intro hdeclared chart hchart
      rw [hlabels chart hchart]
      exact hdeclared

/-- The charts of a root with a child, a dangling name and itself among the declared ones. -/
theorem chartPlan_labels_root :
    letI : Trig ℚ := .rational
    let root : QueueRecord ℚ := { QueueRecord.named "root" with children := ["b", "root", "gone", "a"] }
    let records := [root, .named "a", .named "b"]
    let d := (QueueDashboard.new 1200).load records
    d.tree = QueueTree.build records ∧ (d.selected.bind d.tree.byName?).map (·.record) = some root ∧
      QueueTree.declared records root = ["b", "a"] ∧ ∀ chart ∈ d.chartPlan, chart.labels.Nodup := by
  let trig : Trig ℚ := .rational
  intro root records d
  have htree : d.tree = QueueTree.build records := rfl
  have hselected : (d.selected.bind d.tree.byName?).map (·.record) = some root := by decide +kernel
  have hdeclared : QueueTree.declared records root = ["b", "a"] := by decide +kernel
  obtain ⟨queue, hqueue, hrecord⟩ := Option.map_eq_some_iff.1 hselected
  obtain ⟨own, children, -, -, -, -, -, hdistinct⟩ := (chartPlan_labels htree).2 queue hqueue
  refine ⟨htree, hselected, hdeclared, hdistinct.2 ?_⟩
  rw [hrecord, hdeclared]
  decide

/-- A child that is declared twice is laid out once and charted twice. -/
theorem child_charted_twice :
    letI : Trig ℚ := .rational
    let records : List (QueueRecord ℚ) := [{ QueueRecord.named "root" with children := ["a", "a"] }, .named "a"]
    let d := (QueueDashboard.new 1200).load records
    d.layout.rows.map (·.name) = ["root", "a"] ∧
      d.chartPlan.map PlannedChart.labels = [["a"], ["a", "a"], ["a", "a"]] ∧
      ¬ ∀ chart ∈ d.chartPlan, chart.labels.Nodup := by
  let trig : Trig ℚ := .rational
  intro records d
  have hrows : d.layout.rows.map (·.name) = ["root", "a"] := by decide +kernel
  have hlabels : d.chartPlan.map PlannedChart.labels = [["a"], ["a", "a"], ["a", "a"]] := by decide +kernel
  refine ⟨hrows, hlabels, fun hdistinct => ?_⟩
  have htwice : ["a", "a"] ∈ d.chartPlan.map PlannedChart.labels := by
    rw [hlabels]
    decide
  obtain ⟨chart, hchart, hrepeated⟩ := List.mem_map.1 htwice
  exact absurd (hdistinct chart hchart) (hrepeated ▸ by decide)

end QueueDashboard

end QueueBoard
