import QueueBoard.Proofs.Command.Printed
import QueueBoard.Proofs.Dashboard.Layers
import QueueBoard.Proofs.Dashboard.Toggle
/-!
# One dashboard for all commands on queues

The command that draws a picture toggles the folds of a dashboard one by one, the one that prints the layout
gives all of them to the layout at once, and the one that lists the charts folds nothing. All the same they show
one dashboard (`queues_agree`), whatever their widths and formats: folds do not matter to the charts, nor widths
to the folds.
-/

namespace QueueBoard

open QueueDashboard (Fresh Operation)

namespace Command

variable {env : Config.Environment.Variables} {c : Context} {w : List Warning} {t : FileTree}
  {input select : Option String} {records : List (QueueRecord Float)} {fold : List String} {width : Float}
  {d : QueueDashboard Float}

/-! ## Folds -/

/-- Names that can be folded make up the set to fold. -/
theorem foldedSet_ok {tree : QueueTree Float} {names : List String} (h : ∀ name ∈ names, tree.canFold name = true) :
    foldedSet tree names = .ok (.ofList names) := by
  have hforM : names.forM (ensureFoldable tree) = .ok () := by
    induction names with
    | nil => rfl
    | cons name rest ih =>
      have hcan := h name (.head _)
      have hfirst : ensureFoldable tree name = .ok () := by
        have hqueue : (tree.byName? name).isSome = true := by
          cases hfind : tree.byName? name with
          | none =>
            rw [QueueTree.canFold, hfind] at hcan
            cases hcan
          | some queue => rfl
        rw [ensureFoldable, ensureQueue, if_pos hqueue, hcan]
        rfl
      have hcons : (name :: rest).forM (ensureFoldable tree) =
          (ensureFoldable tree name).bind fun _ => rest.forM (ensureFoldable tree) := rfl
      rw [hcons, hfirst]
      exact ih fun other hother => h other (.tail _ hother)
  rw [foldedSet, hforM]
  rfl

theorem isSome_of_ensureQueue {tree : QueueTree Float} {name : String} {u : Unit} (h : ensureQueue tree name = .ok u) :
    (tree.byName? name).isSome = true := by
  by_contra hnone
  rw [ensureQueue, if_neg hnone] at h
  cases h

/-- A set to fold was made of names that can be folded. -/
theorem canFold_of_foldedSet {tree : QueueTree Float} {names : List String} {folded : FoldedSet}
    (h : foldedSet tree names = .ok folded) : ∀ name ∈ names, tree.canFold name = true := by
  obtain ⟨_, hall, -⟩ := bind_eq_ok h
  clear h
  induction names with
  | nil => simp
  | cons name rest ih =>
    obtain ⟨_, hfirst, hrest⟩ := bind_eq_ok (show (ensureFoldable tree name >>= fun _ =>
      rest.forM (ensureFoldable tree)) = .ok _ from hall)
    obtain ⟨_, -, hcan⟩ := bind_eq_ok hfirst
    rintro other (_ | ⟨_, hother⟩)
    · by_contra hname
      rw [if_pos (by simpa using hname)] at hcan
      cases hcan
    · exact ih hrest other hother

@[simp] theorem on_warn (warnings : List Warning) :
    (warn warnings : Step OnFileTree Unit).on w t = ((.ok (), w ++ warnings), t) := rfl

@[simp] theorem on_drawn (d : QueueDashboard Float) :
    (drawn d : Step OnFileTree _).on w t = ((.ok d, w ++ Warning.ofLayout d.layout), t) := rfl

/-- Folding queue by queue ends well. -/
theorem toggles_on (names : List String) (d : QueueDashboard Float) : ∃ w',
    (names.foldlM (fun d name => drawn (d.toggleFold name).2) d : Step OnFileTree _).on w t =
      ((.ok ((names.map Operation.toggleFold).foldl QueueDashboard.apply d), w'), t) := by
  induction names generalizing d w with
  | nil => exact ⟨w, rfl⟩
  | cons name rest ih =>
    rw [List.foldlM_cons, on_bind, on_drawn]
    exact ih (d.toggleFold name).2

/-- A dashboard of a snapshot as commands draw it. -/
structure Displays (d : QueueDashboard Float) (records : List (QueueRecord Float)) (fold : List String)
    (selected : Option String) : Prop where
  fresh : Fresh d
  tree : d.tree = QueueTree.build records
  folded : d.folded = .ofList fold
  selected : d.selected = selected

/-- What a command does to a new dashboard: it loads the queues, toggles every fold, and selects. -/
def operations (records : List (QueueRecord Float)) (fold : List String) (select : Option String) :
    List (Operation Float) :=
  .load records :: (FoldedSet.ofList fold).names.map .toggleFold ++ select.toList.map .select

/-- The dashboard before the selection, its folds toggled one by one. -/
theorem run_operations_none (width : Float) (records : List (QueueRecord Float)) (fold : List String) :
    QueueDashboard.run width (operations records fold none) =
      ((FoldedSet.ofList fold).names.map Operation.toggleFold).foldl QueueDashboard.apply
        ((QueueDashboard.new width).load records) := by
  rw [operations, Option.toList_none, List.map_nil, List.append_nil]
  rfl

theorem run_operations_some (width : Float) (records : List (QueueRecord Float)) (fold : List String)
    (name : String) : QueueDashboard.run width (operations records fold (some name)) =
      (QueueDashboard.run width (operations records fold none)).select name := by
  rw [run_operations_none, operations, QueueDashboard.run, List.foldl_append]
  rfl

/-- Folding ends well if every name can be folded. -/
theorem dashboard_run (hwidth : c.width = .ok width)
    (hfold : ∀ name ∈ fold, (QueueTree.build records).canFold name = true) : ∃ w',
    (dashboard c records fold : Step OnFileTree _).on w t =
      ((.ok (QueueDashboard.run width (operations records fold none)), w'), t) := by
  let loaded := (QueueDashboard.new width).load records
  have hset : foldedSet loaded.tree fold = .ok (.ofList fold) := foldedSet_ok hfold
  obtain ⟨w', htoggles⟩ := toggles_on (w := w ++ Warning.ofRecords records ++ Warning.ofLayout loaded.layout)
    (t := t) (FoldedSet.ofList fold).names loaded
  refine ⟨w', ?_⟩
  rw [run_operations_none, dashboard, on_bind, on_decided, hwidth]
  dsimp only
  rw [on_bind, on_warn]
  dsimp only
  rw [on_bind, on_drawn]
  dsimp only
  rw [on_bind, on_decided, hset]
  exact htoggles

/-- The dashboard of these operations has the folds that are named and no others, and the selected queue or the
root. -/
theorem displays_operations (hfold : ∀ name ∈ fold, (QueueTree.build records).canFold name = true) :
    Displays (QueueDashboard.run width (operations records fold select)) records fold
      (select.or ((QueueTree.build records).root?.map (·.name))) := by
  let loaded := (QueueDashboard.new width).load records
  have hloaded : Fresh loaded := QueueDashboard.redraw_fresh _
  have hall : (FoldedSet.ofList fold).names.filter loaded.tree.canFold = (FoldedSet.ofList fold).names :=
    List.filter_eq_self.2 fun name hname =>
      hfold name (FoldedSet.contains_ofList.1 (List.contains_iff_mem.2 hname))
  have hfolded : loaded.folded.toggles (FoldedSet.ofList fold).names = .ofList fold :=
    (FoldedSet.ordered_ofList fold).toggles_names
  have hdisplays : Displays (QueueDashboard.run width (operations records fold none)) records fold
      ((QueueTree.build records).root?.map (·.name)) := by
    rw [run_operations_none, hloaded.foldl_toggleFold, hall, hfolded]
    exact ⟨rfl, rfl, rfl, rfl⟩
  cases select with
  | none => exact hdisplays
  | some name =>
    rw [run_operations_some]
    exact ⟨QueueDashboard.redraw_fresh _, hdisplays.tree, hdisplays.folded, rfl⟩

/-- The dashboard of a command, its folds toggled and one queue selected. -/
theorem board_run (hwidth : c.width = .ok width)
    (hfold : ∀ name ∈ fold, (QueueTree.build records).canFold name = true)
    (hselect : ∀ name, select = some name → ((QueueTree.build records).byName? name).isSome = true) : ∃ w',
    (dashboard c records fold >>= fun d => selected d select : Step OnFileTree _).on w t =
      ((.ok (QueueDashboard.run width (operations records fold select)), w'), t) := by
  obtain ⟨w', hdashboard⟩ := dashboard_run (w := w) (t := t) hwidth hfold
  rw [on_bind, hdashboard]
  dsimp only
  cases select with
  | none => exact ⟨w', rfl⟩
  | some name =>
    have htree : (QueueDashboard.run width (operations records fold none)).tree = QueueTree.build records :=
      (displays_operations hfold).tree
    have hqueue : ensureQueue (QueueDashboard.run width (operations records fold none)).tree name = .ok () := by
      rw [ensureQueue, htree]
      exact if_pos (hselect name rfl)
    rw [selected, on_bind, on_decided, hqueue, run_operations_some]
    exact ⟨_, rfl⟩

theorem board_on (hwidth : c.width = .ok width)
    (hfold : ∀ name ∈ fold, (QueueTree.build records).canFold name = true)
    (hselect : ∀ name, select = some name → ((QueueTree.build records).byName? name).isSome = true) : ∃ d w',
    (dashboard c records fold >>= fun d => selected d select : Step OnFileTree _).on w t = ((.ok d, w'), t) ∧
      Displays d records fold (select.or ((QueueTree.build records).root?.map (·.name))) := by
  obtain ⟨w', hrun⟩ := board_run (w := w) (t := t) hwidth hfold hselect
  exact ⟨_, w', hrun, displays_operations hfold⟩

/-- The charts do not depend on the folds. -/
theorem Displays.chartPlan {d' : QueueDashboard Float} {fold' : List String} {name : Option String}
    (h : Displays d records fold name) (h' : Displays d' records fold' name) : d.chartPlan = d'.chartPlan := by
  rw [QueueDashboard.chartPlan, QueueDashboard.chartPlan, h.tree, h'.tree, h.selected, h'.selected]

/-! ## Commands -/

/-- A command line for which the configuration is loaded and a snapshot of these queues read. -/
structure Finds (env : Config.Environment.Variables) (t : FileTree) (c : Context) (input : Option String)
    (records : List (QueueRecord Float)) : Prop where
  config : ((loadConfig env c.globals).on [] t).1.1 = .ok c.config
  queues : ∃ path text, c.input .queues input = .ok path ∧ t.read path = .ok text ∧
    Snapshot.parseQueues text = .ok records

namespace Finds

variable (h : Finds env t c input records)
include h

theorem loadQueues_on : (loadQueues c input).on w t = ((.ok records, w), t) := by
  obtain ⟨path, text, hinput, hread, hparse⟩ := h.queues
  exact Command.loadQueues_on hread hinput hparse

/-- With the configuration loaded, the command on the snapshot is run. -/
theorem run_on {command : Command}
    (hrun : run env c.globals command = (loadConfig env c.globals >>= fun config =>
      runSnapshot ⟨c.globals, config⟩ command : Step OnFileTree _)) :
    (run env c.globals command : Step OnFileTree _).on [] t = (runSnapshot c command).on [] t := by
  rw [hrun, on_bind, loadConfig_on_ok h.config]

theorem layoutQueues_on (hfold : ∀ name ∈ fold, (QueueTree.build records).canFold name = true) :
    ((run env c.globals (.layoutQueues input fold) : Step OnFileTree _).on [] t).1.1 =
      .ok (c.report (.ofLayout (TreeLayout.compute (QueueTree.build records) (.ofList fold)))) := by
  rw [h.run_on rfl, runSnapshot, on_bind, h.loadQueues_on]
  dsimp only
  rw [on_bind, on_warn]
  dsimp only
  rw [on_bind, on_decided, foldedSet_ok hfold]
  rfl

end Finds

/-- **The commands on queues show one dashboard.** Given a snapshot, names that can be folded, in any order and
with repetitions, and a queue that exists or none: the dashboard that is drawn has folded these names and no
others, its circles and texts are in order the places and labels of the nodes that are printed with the same
folds, and its charts have in order the titles of the charts that are printed with the same selection. -/
theorem queues_agree {drawn placed listed : Context} {input₁ input₂ input₃ select : Option String}
    {records : List (QueueRecord Float)} {fold : List String} {width width' : Float}
    (hdrawn : Finds env t drawn input₁ records) (hplaced : Finds env t placed input₂ records)
    (hlisted : Finds env t listed input₃ records) (hwidth : drawn.width = .ok width)
    (hwidth' : listed.width = .ok width')
    (hfold : ∀ name ∈ fold, (QueueTree.build records).canFold name = true)
    (hselect : ∀ name, select = some name → ((QueueTree.build records).byName? name).isSome = true)
    (picture : PictureOptions) :
    ∃ d : QueueDashboard Float, ∃ w, ∃ nodes charts : String,
      (dashboard drawn records fold >>= fun d => selected d select : Step OnFileTree _).on [] t = ((.ok d, w), t) ∧
      (run env drawn.globals (.renderQueues input₁ picture select fold)).on [] t =
        (publish drawn picture d.scene).on w t ∧
      ((run env placed.globals (.layoutQueues input₂ fold) : Step OnFileTree _).on [] t).1.1 =
        .ok { output := nodes } ∧
      NodesPrinted placed d.layout.rows nodes ∧
      ((run env listed.globals (.listCharts input₃ select) : Step OnFileTree _).on [] t).1.1 =
        .ok { output := charts } ∧
      ChartsPrinted listed d.chartPlan charts ∧
      (∀ name, d.folded.contains name = true ↔ name ∈ fold) ∧
      (∃ tree, d.scene.layer? "queues" = some tree ∧
        tree.elements.filterMap (·.shape.center?) = d.layout.rows.map (·.position) ∧
        tree.elements.filterMap (·.shape.words?) = d.layout.rows.map fun row => (row.labelAt, row.label)) ∧
      ∀ i : Nat, (d.scene.layer? ("chart-" ++ toString i)).bind Layer.title? =
        d.chartPlan[i]?.map PlannedChart.title := by
  obtain ⟨d, w, hboard, hdisplays⟩ := board_on (w := []) (t := t) hwidth hfold hselect
  have hnone : ∀ name ∈ ([] : List String), (QueueTree.build records).canFold name = true := by simp
  obtain ⟨e, w', hplan, hdisplays'⟩ := board_on (w := []) (t := t) hwidth' hnone hselect
  refine ⟨d, w, _, _, hboard, ?_, ?_, nodesPrinted_ofLayout placed d.layout, ?_, chartsPrinted_ofPlan listed d,
    fun name => ?_, ⟨d.treeLayer d.layout, hdisplays.fresh.layer_queues, d.centers_treeLayer d.layout,
      d.words_treeLayer d.layout⟩, fun i => ?_⟩
  · rw [hdrawn.run_on rfl, runSnapshot, on_bind, hdrawn.loadQueues_on]
    dsimp only
    rw [← bind_assoc, on_bind, hboard]
  · rw [hplaced.layoutQueues_on hfold, hdisplays.fresh.layout_eq, hdisplays.tree, hdisplays.folded]
    rfl
  · rw [hlisted.run_on rfl, runSnapshot, on_bind, hlisted.loadQueues_on]
    dsimp only
    rw [← bind_assoc, on_bind, hplan, hdisplays.chartPlan hdisplays']
    rfl
  · rw [hdisplays.folded, FoldedSet.contains_ofList]
  · rw [hdisplays.fresh.layer_chart]
    cases d.chartPlan[i]? with
    | none => rfl
    | some chart => exact chart.title?_render _ _

/-- A root with one child. -/
def familyText : String :=
  "[\x7b\"name\":\"root\",\"children\":[\"a\"]\x7d,\x7b\"name\":\"a\",\"parent\":\"root\"\x7d]"

/-- The records of a root with one child. -/
def family : List (QueueRecord Float) :=
  [{ QueueRecord.named "root" with children := ["a"] }, { QueueRecord.named "a" with parent := some "root" }]

theorem parseQueues_familyText : Snapshot.parseQueues familyText = .ok family := by
  have hparse : Json.parse familyText = some (.array [
      .object [("children", .array [.string "a"]), ("name", .string "root")],
      .object [("name", .string "a"), ("parent", .string "root")]]) := rfl
  have hroot : Snapshot.asQueueRecord (.object [("children", .array [.string "a"]), ("name", .string "root")]) =
      .ok { QueueRecord.named "root" with children := ["a"] } := by
    simp [Snapshot.asQueueRecord, Json.asRecord, Json.setMembers, Snapshot.recordFields, Json.field, Except.map,
      bind, Except.bind, Json.asString, QueueRecord.named]
    rfl
  have hchild : Snapshot.asQueueRecord (.object [("name", .string "a"), ("parent", .string "root")]) =
      .ok { QueueRecord.named "a" with parent := some "root" } := by
    simp [Snapshot.asQueueRecord, Json.asRecord, Json.setMembers, Snapshot.recordFields, Json.field, Except.map,
      bind, Except.bind, Json.asString, QueueRecord.named]
    rfl
  rw [Snapshot.parseQueues_array hparse, Json.asList, List.mapM_cons, hroot, List.mapM_cons, hchild]
  rfl

theorem readsBack_twenty : Json.ReadsBack (.float 20) := by
  have htext : (Json.Number.float 20).text = "20.0" := rfl
  have hparse : Json.parse "20.0" = (Json.decimalNumber false 200 (-1)).map Json.number := rfl
  exact readsBack_of_nearest htext hparse rfl rfl

/-- The root folded twice over in a narrow picture, its one node as JSON, and a wide list of the child's chart. -/
theorem queues_agree_family :
    let t : FileTree := { files := [(["board.toml"], familyText)] }
    let input := some "board.toml"
    let fold := ["root", "root"]
    let select := some "a"
    ∃ drawn placed listed : Context, drawn.globals = { width := some 800 } ∧
      placed.globals = { output := some .json } ∧ listed.globals = { output := some .plain, width := some 1600 } ∧
      Finds [] t drawn input family ∧ Finds [] t placed input family ∧ Finds [] t listed input family ∧
      drawn.width = .ok 800 ∧ listed.width = .ok 1600 ∧
      (∀ name ∈ fold, (QueueTree.build family).canFold name = true) ∧
      (∀ name, select = some name → ((QueueTree.build family).byName? name).isSome = true) ∧
      ∃ (d : QueueDashboard Float) (nodes charts : String),
        ((run [] placed.globals (.layoutQueues input fold) : Step OnFileTree _).on [] t).1.1 =
          .ok { output := nodes } ∧
        Json.parse nodes = some (.array [.object [("depth", .natural 0), ("folded", .boolean true),
          ("has_children", .boolean true), ("id", .natural 0), ("name", .string "root"),
          ("position", .object [("x", .float 20), ("y", .float 20)]), ("sequence", .natural 0)]]) ∧
        ((run [] listed.globals (.listCharts input select) : Step OnFileTree _).on [] t).1.1 =
          .ok { output := charts } ∧
        Text.lines charts = ["Queue Capacities"] ∧
        (∀ name, d.folded.contains name = true ↔ name ∈ fold) ∧
        (∃ tree, d.scene.layer? "queues" = some tree ∧
          tree.elements.filterMap (·.shape.center?) = [⟨20, 20⟩] ∧
          tree.elements.filterMap (·.shape.words?) = [(⟨50, 25⟩, "root (+)")]) ∧
        (d.scene.layer? "chart-0").bind Layer.title? = some "Queue Capacities" := by
  intro t input fold select
  have hread : t.read "board.toml" = .ok familyText := by
    rw [FileTree.read, FileTree.resolve_board rfl]
    rfl
  have hfinds : ∀ g : Globals, g.config = none → ∃ c : Context, c.globals = g ∧ Finds [] t c input family := by
    intro g hg
    obtain ⟨config, hconfig⟩ : ∃ config, ((loadConfig [] g).on [] t).1.1 = .ok config := loadConfig_of_no_path hg
    exact ⟨⟨g, config⟩, rfl, hconfig, "board.toml", familyText, rfl, hread, parseQueues_familyText⟩
  obtain ⟨drawn, hdrawn, hdraws⟩ := hfinds { width := some 800 } rfl
  obtain ⟨placed, hplaced, hplaces⟩ := hfinds { output := some .json } rfl
  obtain ⟨listed, hlisted, hlists⟩ := hfinds { output := some .plain, width := some 1600 } rfl
  have hnarrow : drawn.width = .ok 800 := by
    have hvalid : Config.isWidth 800 = true := by decide +kernel
    rw [Context.width, hdrawn]
    exact if_pos hvalid
  have hwide : listed.width = .ok 1600 := by
    have hvalid : Config.isWidth 1600 = true := by decide +kernel
    rw [Context.width, hlisted]
    exact if_pos hvalid
  have hfold : ∀ name ∈ fold, (QueueTree.build family).canFold name = true := by decide
  have hselect : ∀ name, select = some name → ((QueueTree.build family).byName? name).isSome = true := by
    intro name hname
    rw [← Option.some.inj (show some "a" = some name from hname)]
    decide
  obtain ⟨d, w, nodes, charts, hboard, -, hnodes, hnodesPrinted, hcharts, hchartsPrinted, hfolded,
    ⟨tree, htree, hcenters, hwords⟩, htitles⟩ := queues_agree hdraws hplaces hlists hnarrow hwide hfold hselect {}
  -- the dashboard is the one of its operations, so its rows and charts are known
  obtain ⟨e, w', hboard', hdisplays⟩ := board_on (w := []) (t := t) hnarrow hfold hselect
  obtain rfl : d = e := by
    have hsame := congrArg (fun ending => ending.1.1) (hboard.symm.trans hboard')
    exact Except.ok.inj hsame
  have hrows : d.layout.rows = [⟨0, "root", ⟨20, 20⟩, 0, 0, true, true⟩] := by
    rw [hdisplays.fresh.layout_eq, hdisplays.tree, hdisplays.folded]
    rfl
  have hplan : d.chartPlan.map (·.title) = ["Queue Capacities"] := by
    rw [QueueDashboard.chartPlan, hdisplays.tree, hdisplays.selected]
    rfl
  have hexact : ∀ node ∈ d.layout.rows, (node.id < 2 ^ 64 ∧ node.depth < 2 ^ 64 ∧ node.sequence < 2 ^ 64) ∧
      ∀ x ∈ [node.position.x, node.position.y], x.isFinite = true → Json.ReadsBack (.float x) := by
    rw [hrows]
    simp [readsBack_twenty]
  have hjson := hnodesPrinted.json (by rw [hplaced]) (.inl (by rw [Context.format, hplaced])) hexact
  have hlines := hchartsPrinted.plain (by rw [hlisted]) (by rw [Context.format, hlisted])
  have hlabels : d.layout.rows.map (fun row => (row.labelAt, row.label)) = [(⟨50, 25⟩, "root (+)")] := by
    have hplace : (⟨20, 20⟩ : Point Float).offset 30 5 = ⟨50, 25⟩ := by decide +kernel
    rw [hrows, List.map_singleton, PlacedNode.labelAt, hplace]
    rfl
  rw [hlabels] at hwords
  rw [hrows] at hjson hcenters
  rw [hplan] at hlines
  have htitle : d.chartPlan[0]?.map PlannedChart.title = some "Queue Capacities" := by
    rw [← List.getElem?_map, hplan]
    rfl
  exact ⟨drawn, placed, listed, hdrawn, hplaced, hlisted, hdraws, hplaces, hlists, hnarrow, hwide, hfold, hselect, d,
    nodes, charts, hnodes, hjson, hcharts, hlines, hfolded, ⟨tree, htree, hcenters, hwords⟩,
    (htitles 0).trans htitle⟩

end Command

end QueueBoard
