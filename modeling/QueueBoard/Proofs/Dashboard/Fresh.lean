import QueueBoard.Proofs.Dashboard.Run
/-!
# The picture is never stale

A picture is `Fresh` if drawing it anew changes nothing. Drawing makes it so; the pointer, which only
swaps the tree's layer, keeps it so, for the swapped layer is the one a redraw would draw. Main
statement: `run_fresh`, over every sequence of operations.
-/

namespace QueueBoard

variable {α : Type}

/-! ## Layers -/

/-- The layer of an id gives way to the new one, and no other does. -/
theorem Scene.replaceFirst_append {layer old : Layer α} {before after : List (Layer α)}
    (hbefore : ∀ l ∈ before, l.id ≠ layer.id) (hold : old.id = layer.id) :
    replaceLayer.replaceFirst layer (before ++ old :: after) = before ++ layer :: after := by
  induction before with
  | nil => simp [replaceLayer.replaceFirst, hold]
  | cons first rest ih =>
    obtain ⟨hfirst, hrest⟩ := List.forall_mem_cons.1 hbefore
    have hne : (first.id == layer.id) = false := beq_eq_false_iff_ne.2 hfirst
    rw [List.cons_append, replaceLayer.replaceFirst, hne, ih hrest]
    rfl

variable [Scalar α] [Trig α]

theorem PlannedChart.id_render (c : PlannedChart α) (panel : Panel α) (palette : Palette) :
    (c.render panel palette).id = "chart-" ++ toString panel.id := by
  unfold PlannedChart.render
  cases c.kind <;> rfl

/-- The layers of a plan are numbered on from the panels handed out before. -/
theorem renderPlan_ids (palette : Palette) (plan : List (PlannedChart α)) (grid : PanelGrid α) :
    (renderPlan palette plan grid).1.map (·.id) =
      (List.range plan.length).map fun i => "chart-" ++ toString (grid.allocated + i) := by
  induction plan generalizing grid with
  | nil => rfl
  | cons chart rest ih =>
    rw [renderPlan, List.map_cons, ih, List.length_cons, List.range_succ_eq_map, List.map_cons,
      List.map_map]
    refine List.cons_eq_cons.2 ⟨PlannedChart.id_render _ _ _, List.map_congr_left fun i _ => ?_⟩
    simp [PanelGrid.allocate, Nat.add_assoc, Nat.add_comm 1]

namespace QueueDashboard

/-- What a picture is drawn from is the same. -/
structure Alike (d e : QueueDashboard α) : Prop where
  width : d.width = e.width
  palette : d.palette = e.palette
  tree : d.tree = e.tree
  folded : d.folded = e.folded
  selected : d.selected = e.selected
  hovered : d.hovered = e.hovered

/-- The picture depends on nothing else, in particular not on the picture before. -/
theorem Alike.redraw {d e : QueueDashboard α} (h : Alike d e) :
    d.redraw.layout = e.redraw.layout ∧ d.redraw.height = e.redraw.height ∧
      d.redraw.scene = e.redraw.scene := by
  cases d
  cases e
  obtain ⟨hw, hp, ht, hf, hs, hh⟩ := h
  dsimp only at hw hp ht hf hs hh
  subst hw hp ht hf hs hh
  exact ⟨rfl, rfl, rfl⟩

/-- Drawing the picture anew changes nothing but its number. -/
def Fresh (d : QueueDashboard α) : Prop := d.redraw = { d with generation := d.generation + 1 }

theorem redraw_fresh (d : QueueDashboard α) : Fresh d.redraw := rfl

theorem Fresh.withTooltip {d : QueueDashboard α} (h : Fresh d) (tooltip : TooltipController α) :
    Fresh { d with tooltip } := by
  have hredraw : redraw { d with tooltip } = { d.redraw with tooltip } := rfl
  rw [Fresh, hredraw, h]

/-- The rule of a new picture, if there is a tree. -/
def ruleLayers (d : QueueDashboard α) : List (Layer α) :=
  if d.tree.isEmpty then [] else [Backdrop.separator d.redraw.layout.bannerWidth d.redraw.height]

/-- The charts of a new picture. -/
def chartLayers (d : QueueDashboard α) : List (Layer α) :=
  let banner := d.redraw.layout.bannerWidth
  (renderPlan d.palette d.chartPlan { available := d.width - banner, left := banner }).1

theorem redraw_layers (d : QueueDashboard α) :
    d.redraw.scene.layers = (Backdrop.grid d.width d.redraw.height :: d.ruleLayers) ++
      d.treeLayer d.redraw.layout :: d.chartLayers := rfl

theorem ids_ruleLayers (d : QueueDashboard α) :
    d.ruleLayers.map (·.id) = if d.tree.isEmpty then [] else ["banner"] := by
  unfold ruleLayers
  split <;> rfl

/-- The tree's layer is the only one of its id before the charts. -/
theorem id_ne_queues (d : QueueDashboard α) :
    ∀ l ∈ Backdrop.grid d.width d.redraw.height :: d.ruleLayers, l.id ≠ "queues" := by
  refine List.forall_mem_cons.2 ⟨show "grid" ≠ "queues" by decide, fun l hl => ?_⟩
  have hid : l.id ∈ d.ruleLayers.map (·.id) := List.mem_map_of_mem hl
  rw [ids_ruleLayers] at hid
  split at hid
  · cases hid
  · rw [List.mem_singleton.1 hid]
    decide

/-- With another name hovered, the picture differs in the tree's layer alone. -/
theorem redraw_hovered (d : QueueDashboard α) (name : Option String) :
    redraw { d with hovered := name } =
      { d.redraw with
        hovered := name
        scene := d.redraw.scene.replaceLayer (treeLayer { d with hovered := name } d.redraw.layout) } := by
  let e := { d with hovered := name }
  have hids : ∀ l ∈ Backdrop.grid d.width d.redraw.height :: d.ruleLayers,
      l.id ≠ (e.treeLayer d.redraw.layout).id := d.id_ne_queues
  have hold : (d.treeLayer d.redraw.layout).id = (e.treeLayer d.redraw.layout).id := rfl
  have hlayers : Scene.replaceLayer.replaceFirst (e.treeLayer d.redraw.layout) d.redraw.scene.layers =
      e.redraw.scene.layers := by
    rw [redraw_layers, Scene.replaceFirst_append hids hold]
    rfl
  have hscene : d.redraw.scene.replaceLayer (e.treeLayer d.redraw.layout) = e.redraw.scene := by
    rw [Scene.replaceLayer, hlayers]
    rfl
  rw [show d.redraw.scene.replaceLayer (treeLayer { d with hovered := name } d.redraw.layout) = _ from hscene]
  rfl

theorem Fresh.hover {d : QueueDashboard α} (h : Fresh d) (name : Option String) : Fresh (d.hover name) := by
  unfold QueueDashboard.hover
  split
  · exact h
  · have hredraw : redraw (recolorTree { d with hovered := name }) = redraw { d with hovered := name } := rfl
    rw [Fresh, hredraw, redraw_hovered, h]
    rfl

theorem apply_fresh {d : QueueDashboard α} (h : Fresh d) (op : Operation α) : Fresh (d.apply op) := by
  rcases d.apply_cases op with ⟨e, he, -⟩ | ⟨name, tooltip, he⟩
  · rw [he]
    exact redraw_fresh e
  · rw [he]
    exact (h.hover name).withTooltip tooltip

/-- The layers of a new picture. -/
theorem redraw_layer_ids (d : QueueDashboard α) :
    d.redraw.scene.layers.map (·.id) =
      "grid" :: (if d.tree.isEmpty then [] else ["banner"]) ++
        "queues" :: (List.range d.chartPlan.length).map fun i => "chart-" ++ toString i := by
  rw [redraw_layers, List.map_append, List.map_cons, List.map_cons, ids_ruleLayers, chartLayers,
    renderPlan_ids]
  simp only [Nat.zero_add]
  rfl

/-- **The scene is never stale.** After any operations, layout, height and scene are what a redraw
computes from the present width, palette, tree, folds, selection and hovered name, so that one more
redraw only counts; and the layers are the grid, the rule if there is a tree, the tree, and a chart for
each of the plan. -/
theorem run_fresh (width : α) (ops : List (Operation α)) :
    let d := run width ops
    (∀ e, Alike e d → e.redraw.layout = d.layout ∧ e.redraw.height = d.height ∧ e.redraw.scene = d.scene) ∧
      d.redraw = { d with generation := d.generation + 1 } ∧
      d.scene.layers.map (·.id) =
        "grid" :: (if d.tree.isEmpty then [] else ["banner"]) ++
          "queues" :: (List.range d.chartPlan.length).map fun i => "chart-" ++ toString i := by
  intro d
  have hfresh : Fresh d := run_induction width (redraw_fresh _) (fun _ op h => apply_fresh h op) ops
  have hscene : d.redraw.scene = d.scene := by rw [hfresh]
  refine ⟨fun e he => ?_, hfresh, ?_⟩
  · obtain ⟨hl, hh, hs⟩ := he.redraw
    exact ⟨hl.trans (by rw [hfresh]), hh.trans (by rw [hfresh]), hs.trans hscene⟩
  · rw [← hscene]
    exact redraw_layer_ids d

end QueueDashboard

end QueueBoard
