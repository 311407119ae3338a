import QueueBoard.Proofs.Command.Report
import QueueBoard.Proofs.Table
import QueueBoard.Proofs.Yaml
/-!
# What reports print

A report on a list is read back in each notation: the rows of the table, the values of the JSON, the members in the
YAML and the plain lines are those of the entries, in order. So what is printed of a layout are its nodes
(`nodesPrinted_ofLayout`), and what is printed of a plan are its charts (`chartsPrinted_ofPlan`).
-/

namespace QueueBoard

namespace Command

open Json (Numbers ReadsBack)
open Table (Legible)

variable {c : Context}

/-- Text that is wanted stands before a line break. -/
theorem output_of_ne_empty {r : Report} (hquiet : c.globals.quiet = false) (hne : r.text c.format ≠ "") :
    (c.report r).output = r.text c.format ++ "\n" := by
  have hsome : (r.text c.format).isEmpty = false := by simpa using hne
  rw [Context.report, printed, hquiet, hsome]
  rfl

/-! ## Lists -/

section Lists

variable {β : Type} {header : List String} {row : β → List String} {data : β → Json} {line : β → String}
  {entries : List β} (hquiet : c.globals.quiet = false)
include hquiet

theorem readRows_ofList (hformat : c.format = .table) (hlength : ∀ b ∈ entries, (row b).length = header.length)
    (hne : header ≠ []) (hheader : ∀ cell ∈ header, Legible cell)
    (hcells : ∀ b ∈ entries, ∀ cell ∈ row b, Legible cell) :
    Table.readRows (c.report (.ofList header row data line entries)).output = header :: entries.map row := by
  have htext : (Report.ofList header row data line entries).text c.format = Table.text ⟨header, entries.map row⟩ := by
    rw [hformat]
    rfl
  rw [output_of_ne_empty hquiet (htext ▸ Table.text_ne_empty _), htext]
  exact Table.readRows_text (List.forall_mem_map.2 hlength) hne hheader (List.forall_mem_map.2 hcells)

theorem parse_ofList (hformat : c.format = .json ∨ c.format = .jsonCompact)
    (hnumbers : ∀ b ∈ entries, Numbers ReadsBack (data b)) (hdepth : ∀ b ∈ entries, (data b).depth < Json.levelLimit) :
    Json.parse (c.report (.ofList header row data line entries)).output =
      some (.array (entries.map fun b => (data b).normal)) := by
  have hall : Numbers ReadsBack (Report.ofList header row data line entries).data :=
    .array (List.forall_mem_map.2 hnumbers)
  obtain ⟨text, houtput, htext⟩ := report_isText hformat hquiet hall
  rw [houtput]
  exact Json.IsText.parse_array htext hdepth

theorem entries_ofList (hformat : c.format = .yaml) (h : ∀ b ∈ entries, Yaml.Plain (data b)) :
    Yaml.entries (c.report (.ofList header row data line entries)).output =
      entries.flatMap fun b => Yaml.leaves (data b) := by
  have htext : (Report.ofList header row data line entries).text c.format =
      Yaml.document (.array (entries.map data)) := by
    rw [hformat]
    rfl
  rw [output_of_ne_empty hquiet (htext ▸ Yaml.document_array_ne_empty _), htext,
    Yaml.entries_document (.array (List.forall_mem_map.2 h)), Yaml.leaves, Yaml.leavesOfItems_eq_flatMap,
    List.flatMap_map]

theorem lines_ofList (hformat : c.format = .plain) (h : ∀ b ∈ entries, line b ≠ "" ∧ '\n' ∉ (line b).toList) :
    Text.lines (c.report (.ofList header row data line entries)).output = entries.map line := by
  have htext : (Report.ofList header row data line entries).text c.format = "\n".intercalate (entries.map line) := by
    rw [hformat]
    rfl
  cases entries with
  | nil =>
    have hempty : (c.report (.ofList header row data line [])).output = "" := by
      rw [Context.report, htext, printed]
      simp
    have hsplit : "".splitOn "\n" = [""] := Text.splitOn_singleton "" '\n'
    rw [hempty, Text.lines, hsplit]
    rfl
  | cons b rest =>
    have hne : "\n".intercalate ((b :: rest).map line) ≠ "" := by
      obtain ⟨more, hmore⟩ := Text.exists_intercalate_cons "\n" (line b) (rest.map line)
      rw [List.map_cons, hmore]
      exact fun hempty => (h b List.mem_cons_self).1 (String.append_eq_empty_iff.1 hempty).1
    have hlines : (b :: rest).map line ≠ [] := by simp
    rw [output_of_ne_empty hquiet (htext ▸ hne), htext, Text.intercalate_append_break hlines,
      Text.lines_join (List.forall_mem_map.2 fun b hb => (h b hb).2)]

end Lists

/-! ## Nodes -/

/-- The nodes are printed, one after the other, in the notation of a command; nothing is printed if that is not
wanted. What a notation cannot show, such as a line break in a plain name, is shown by `written` alone. -/
structure NodesPrinted (c : Context) (nodes : List (PlacedNode Float)) (output : String) : Prop where
  written : output = printed c.globals (Report.text
    { table := Table.text ⟨["Queue", "Depth", "X", "Y"], nodes.map fun node =>
        [String.join (List.replicate node.depth "  ") ++ node.label, toString node.depth,
          Scalar.text node.position.x, Scalar.text node.position.y]⟩
      data := .array (nodes.map fun node => .object [("id", .natural node.id), ("name", .string node.name),
        ("position", .object [("x", .float node.position.x), ("y", .float node.position.y)]),
        ("depth", .natural node.depth), ("sequence", .natural node.sequence), ("folded", .boolean node.folded),
        ("has_children", .boolean node.hasChildren)])
      plain := "\n".intercalate (nodes.map (·.name)) } c.format)
  table : c.globals.quiet = false → c.format = .table → (∀ node ∈ nodes, Legible node.name ∧ node.name ≠ "") →
    Table.readRows output = ["Queue", "Depth", "X", "Y"] :: nodes.map fun node =>
      [String.join (List.replicate node.depth "  ") ++ node.label, toString node.depth,
        Scalar.text node.position.x, Scalar.text node.position.y]
  json : c.globals.quiet = false → c.format = .json ∨ c.format = .jsonCompact →
    (∀ node ∈ nodes, (node.id < 2 ^ 64 ∧ node.depth < 2 ^ 64 ∧ node.sequence < 2 ^ 64) ∧
      ∀ x ∈ [node.position.x, node.position.y], x.isFinite = true → ReadsBack (.float x)) →
    Json.parse output = some (.array (nodes.map fun node => .object [("depth", .natural node.depth),
      ("folded", .boolean node.folded), ("has_children", .boolean node.hasChildren), ("id", .natural node.id),
      ("name", .string node.name),
      ("position", .object [("x", .float node.position.x), ("y", .float node.position.y)]),
      ("sequence", .natural node.sequence)]))
  yaml : c.globals.quiet = false → c.format = .yaml → (∀ node ∈ nodes, Yaml.IsUnquoted node.name) →
    Yaml.entries output = nodes.flatMap fun node => [("id", toString node.id), ("name", node.name),
      ("x", Yaml.word (.float node.position.x)), ("y", Yaml.word (.float node.position.y)),
      ("depth", toString node.depth), ("sequence", toString node.sequence), ("folded", toString node.folded),
      ("has_children", toString node.hasChildren)]
  plain : c.globals.quiet = false → c.format = .plain →
    (∀ node ∈ nodes, node.name ≠ "" ∧ '\n' ∉ node.name.toList) → Text.lines output = nodes.map (·.name)

section Nodes

variable {node : PlacedNode Float}

theorem legible_label (h : Legible node.name) (hne : node.name ≠ "") : Legible node.label ∧ node.label ≠ "" := by
  rw [PlacedNode.label]
  split
  · have hmark : Legible " (+)" := by decide
    refine ⟨.append h.oneLine h.unbarred hmark (by decide), fun hempty => ?_⟩
    exact hne (String.append_eq_empty_iff.1 hempty).1
  · exact ⟨h, hne⟩

theorem legible_text (x : Float) : Legible (Scalar.text x) :=
  Table.legible_of_isMark fun _ hc => Decimal.Style.isMark_of_mem_text (by decide) (by decide) hc

theorem legible_nodeRow (h : Legible node.name) (hne : node.name ≠ "") :
    ∀ cell ∈ Report.nodeRow node, Legible cell := by
  obtain ⟨hlabel, hsome⟩ := legible_label h hne
  have hindent : ∀ c ∈ (String.join (List.replicate node.depth "  ")).toList, c = ' ' := by
    simp
  have hfirst : Legible (String.join (List.replicate node.depth "  ") ++ node.label) :=
    .append (fun hmem => absurd (hindent _ hmem) (by decide)) (fun hmem => absurd (hindent _ hmem) (by decide))
      hlabel hsome
  simp only [Report.nodeRow, List.forall_mem_cons]
  exact ⟨hfirst, Table.legible_toString _, legible_text _, legible_text _, by simp⟩

theorem numbers_nodeData (hwhole : node.id < 2 ^ 64 ∧ node.depth < 2 ^ 64 ∧ node.sequence < 2 ^ 64)
    (hplace : ∀ x ∈ [node.position.x, node.position.y], x.isFinite = true → ReadsBack (.float x)) :
    Numbers ReadsBack (Report.nodeData node) := by
  obtain ⟨hid, hdepth, hsequence⟩ := hwhole
  obtain ⟨hx, hy, -⟩ : _ ∧ _ ∧ _ := by simpa only [List.forall_mem_cons] using hplace
  have hposition : Numbers ReadsBack (.object [("x", .float node.position.x), ("y", .float node.position.y)]) := by
    refine .object ?_
    simp only [List.forall_mem_cons]
    exact ⟨Snapshot.numbers_float hx, Snapshot.numbers_float hy, by simp⟩
  refine .object ?_
  simp only [List.forall_mem_cons]
  exact ⟨.number (Json.readsBack_natural hid), .string _, hposition, .number (Json.readsBack_natural hdepth),
    .number (Json.readsBack_natural hsequence), .boolean _, .boolean _, by simp⟩

theorem normal_nodeData (node : PlacedNode Float) : (Report.nodeData node).normal = .object [
    ("depth", .natural node.depth), ("folded", .boolean node.folded), ("has_children", .boolean node.hasChildren),
    ("id", .natural node.id), ("name", .string node.name),
    ("position", .object [("x", .float node.position.x), ("y", .float node.position.y)]),
    ("sequence", .natural node.sequence)] := by
  simp only [Report.nodeData, Json.normal, Json.normalMembers, Snapshot.normal_float]
  rfl

theorem depth_nodeData (node : PlacedNode Float) : (Report.nodeData node).depth = 2 := by
  simp [Report.nodeData, Json.depth, Json.depthOfMembers, Snapshot.depth_float, Json.natural]

theorem plain_nodeData (h : Yaml.IsUnquoted node.name) : Yaml.Plain (Report.nodeData node) := by
  have hposition : Yaml.Plain (.object [("x", .float node.position.x), ("y", .float node.position.y)]) := by
    refine .ofMembers ?_
    simp only [List.forall_mem_cons]
    exact ⟨⟨by decide, .inl (Yaml.isWord_float _)⟩, ⟨by decide, .inl (Yaml.isWord_float _)⟩, by simp⟩
  refine .ofMembers ?_
  simp only [List.forall_mem_cons]
  exact ⟨⟨by decide, .inl (Yaml.isWord_natural _)⟩, ⟨by decide, .inl (Yaml.isWord_string h)⟩,
    ⟨by decide, .inr hposition⟩, ⟨by decide, .inl (Yaml.isWord_natural _)⟩,
    ⟨by decide, .inl (Yaml.isWord_natural _)⟩, ⟨by decide, .inl (Yaml.isWord_boolean _)⟩,
    ⟨by decide, .inl (Yaml.isWord_boolean _)⟩, by simp⟩

theorem leaves_nodeData (node : PlacedNode Float) : Yaml.leaves (Report.nodeData node) = [
    ("id", toString node.id), ("name", node.name), ("x", Yaml.word (.float node.position.x)),
    ("y", Yaml.word (.float node.position.y)), ("depth", toString node.depth),
    ("sequence", toString node.sequence), ("folded", toString node.folded),
    ("has_children", toString node.hasChildren)] := by
  have hx := (Yaml.isWord_float node.position.x).scalar
  have hy := (Yaml.isWord_float node.position.y).scalar
  rw [Report.nodeData, Yaml.leaves, Yaml.leavesOfMembers_scalar rfl, Yaml.leavesOfMembers_scalar rfl,
    Yaml.leavesOfMembers_object, Yaml.leavesOfMembers_scalar hx, Yaml.leavesOfMembers_scalar hy,
    Yaml.leavesOfMembers_scalar rfl, Yaml.leavesOfMembers_scalar rfl, Yaml.leavesOfMembers_scalar rfl,
    Yaml.leavesOfMembers_scalar rfl, Yaml.word_boolean, Yaml.word_boolean]
  rfl

end Nodes

/-- **The nodes of a layout are printed.** -/
theorem nodesPrinted_ofLayout (c : Context) (layout : TreeLayout Float) :
    NodesPrinted c layout.rows (c.report (.ofLayout layout)).output where
  written := rfl
  table hquiet hformat h :=
    readRows_ofList hquiet hformat (fun _ _ => rfl) (List.cons_ne_nil _ _) (by decide)
      fun node hnode => legible_nodeRow (h node hnode).1 (h node hnode).2
  json hquiet hformat h := by
    have hnumbers : ∀ node ∈ layout.rows, Numbers ReadsBack (Report.nodeData node) :=
      fun node hnode => numbers_nodeData (h node hnode).1 (h node hnode).2
    have hdepth : ∀ node ∈ layout.rows, (Report.nodeData node).depth < Json.levelLimit :=
      fun node _ => depth_nodeData node ▸ by decide
    refine (parse_ofList hquiet hformat hnumbers hdepth).trans ?_
    simp only [normal_nodeData]
  yaml hquiet hformat h := by
    refine (entries_ofList hquiet hformat fun node hnode => plain_nodeData (h node hnode)).trans ?_
    simp only [leaves_nodeData]
  plain hquiet hformat h := lines_ofList hquiet hformat h

/-! ## Charts -/

/-- The charts are printed, one after the other, in the notation of a command; nothing is printed if that is not
wanted. -/
structure ChartsPrinted (c : Context) (charts : List (PlannedChart Float)) (output : String) : Prop where
  written : output = printed c.globals (Report.text
    { table := Table.text ⟨["Title", "Kind", "Series"], charts.map fun chart =>
        [chart.title, chart.kind.name, toString chart.data.length]⟩
      data := .array (charts.map fun chart => .object [("title", .string chart.title),
        ("kind", .string chart.kind.name), ("series", .natural chart.data.length)])
      plain := "\n".intercalate (charts.map (·.title)) } c.format)
  table : c.globals.quiet = false → c.format = .table →
    Table.readRows output = ["Title", "Kind", "Series"] :: charts.map fun chart =>
      [chart.title, chart.kind.name, toString chart.data.length]
  json : c.globals.quiet = false → c.format = .json ∨ c.format = .jsonCompact →
    (∀ chart ∈ charts, chart.data.length < 2 ^ 64) →
    Json.parse output = some (.array (charts.map fun chart => .object [("kind", .string chart.kind.name),
      ("series", .natural chart.data.length), ("title", .string chart.title)]))
  yaml : c.globals.quiet = false → c.format = .yaml →
    Yaml.entries output = charts.flatMap fun chart => [("title", chart.title), ("kind", chart.kind.name),
      ("series", toString chart.data.length)]
  plain : c.globals.quiet = false → c.format = .plain → Text.lines output = charts.map (·.title)

/-- The titles of charts on queues. -/
def chartTitles : List String :=
  ["LeafQueues Used Capacities", "Queue Capacities", "Children Capacities", "Children Used Capacities"]

theorem title_mem_of_mem_chartPlan {d : QueueDashboard Float} {chart : PlannedChart Float} (h : chart ∈ d.chartPlan) :
    chart.title ∈ chartTitles := by
  rw [QueueDashboard.chartPlan] at h
  split at h
  · cases h
  · rw [QueueDashboard.plan] at h
    rcases List.mem_cons.1 h with rfl | h
    · split <;> simp [chartTitles, QueueDashboard.queueDonut, QueueDashboard.capacityBars]
    · split at h
      · cases h
      · simp only [List.mem_cons, List.not_mem_nil, or_false] at h
        rcases h with rfl | rfl <;> simp [chartTitles, QueueDashboard.queueDonut]

theorem chartTitles_worded :
    ∀ title ∈ chartTitles, Legible title ∧ Yaml.IsUnquoted title ∧ title ≠ "" ∧ '\n' ∉ title.toList := by
  decide +kernel

theorem name_worded (kind : ChartKind Float) : Legible kind.name ∧ Yaml.IsUnquoted kind.name := by
  have hwords : ∀ word ∈ ["bar", "donut"], Legible word ∧ Yaml.IsUnquoted word := by decide +kernel
  exact hwords _ (by cases kind <;> simp [ChartKind.name])

theorem plain_chartData {chart : PlannedChart Float} (h : Yaml.IsUnquoted chart.title) :
    Yaml.Plain (Report.chartData chart.summary) := by
  refine .ofMembers ?_
  simp only [List.forall_mem_cons]
  exact ⟨⟨by decide, .inl (Yaml.isWord_string h)⟩, ⟨by decide, .inl (Yaml.isWord_string (name_worded chart.kind).2)⟩,
    ⟨by decide, .inl (Yaml.isWord_natural _)⟩, by simp⟩

theorem ofPlan_eq (charts : List (PlannedChart Float)) : Report.ofPlan charts =
    .ofList ["Title", "Kind", "Series"] (fun chart => [chart.title, chart.kind.name, toString chart.data.length])
      (fun chart => Report.chartData chart.summary) (·.title) charts := by
  simp only [Report.ofPlan, Report.ofList, List.map_map]
  rfl

/-- **The charts of a dashboard are printed,** whatever the names of its queues. -/
theorem chartsPrinted_ofPlan (c : Context) (d : QueueDashboard Float) :
    ChartsPrinted c d.chartPlan (c.report (.ofPlan d.chartPlan)).output := by
  have htitle : ∀ chart ∈ d.chartPlan, Legible chart.title ∧ Yaml.IsUnquoted chart.title ∧ chart.title ≠ "" ∧
      '\n' ∉ chart.title.toList := fun _ hchart => chartTitles_worded _ (title_mem_of_mem_chartPlan hchart)
  generalize d.chartPlan = charts at *
  rw [ofPlan_eq]
  refine ⟨rfl, fun hquiet hformat => ?_, fun hquiet hformat hseries => ?_, fun hquiet hformat => ?_,
    fun hquiet hformat => lines_ofList hquiet hformat fun chart hchart => (htitle chart hchart).2.2⟩
  · refine readRows_ofList hquiet hformat (fun _ _ => rfl) (List.cons_ne_nil _ _) (by decide) fun chart hchart => ?_
    simp only [List.forall_mem_cons]
    exact ⟨(htitle chart hchart).1, (name_worded chart.kind).1, Table.legible_toString _, by simp⟩
  · refine parse_ofList hquiet hformat (fun chart hchart => .object ?_) fun chart _ => of_decide_eq_true rfl
    simp only [List.forall_mem_cons]
    exact ⟨.string _, .string _, .number (Json.readsBack_natural (hseries chart hchart)), by simp⟩
  · exact entries_ofList hquiet hformat fun chart hchart => plain_chartData (htitle chart hchart).2.1

end Command

end QueueBoard
