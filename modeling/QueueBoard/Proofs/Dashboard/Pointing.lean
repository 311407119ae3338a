import QueueBoard.Proofs.Dashboard.Generation
/-!
# Pointing at queues

What the pointer means is decided from the top: the charts, then the tree. The charts mean no queues,
and the tree's layer is drawn from tree and folds, up to its colors. So pointing at one place on two
pictures of the same tree with the same folds cannot mean two queues (`Fresh.queueAt_unique`), though on
one of them a chart may cover the queue.
-/

namespace QueueBoard

variable {α : Type} [Scalar α] [Trig α]

namespace QueueDashboard

variable {d e : QueueDashboard α} {p : Point α} {name other : String}

/-- Charts mean data, not queues. -/
theorem not_queue_of_mem_chartLayers {layer : Layer α} (hlayer : layer ∈ d.chartLayers) {e : Element α}
    (he : e ∈ layer.elements) : e.target ≠ some (.queue name) := by
  intro htarget
  obtain ⟨i, chart, -, rfl⟩ := mem_chartLayers_iff.1 hlayer
  obtain ⟨datum, -, hdatum⟩ := PlannedChart.target_iff.1 ⟨e, he, htarget⟩
  cases hdatum

/-- A queue that the pointer means is on top in the layer of the tree. -/
theorem Fresh.topmost_tree (h : Fresh d) (hqueue : d.queueAt p = some name) :
    Scene.topmost (d.treeLayer d.layout).elements p = some (.queue name) := by
  have hlayout : d.redraw.layout = d.layout := h.layout_eq.symm
  have htarget : d.scene.targetAt p = some (.queue name) := by
    unfold queueAt at hqueue
    split at hqueue
    · rename_i queue htarget
      rwa [Option.some.inj hqueue] at htarget
    · cases hqueue
  have helements : d.scene.elements =
      ((Backdrop.grid d.width d.redraw.height :: d.ruleLayers).flatMap (·.elements) ++
        (d.treeLayer d.layout).elements) ++ d.chartLayers.flatMap (·.elements) := by
    rw [← h.scene_eq, Scene.elements, redraw_layers, hlayout, List.flatMap_append, List.append_assoc]
    rfl
  rw [Scene.targetAt_eq_topmost, helements, Scene.topmost_append, Scene.topmost_append] at htarget
  have hcharts : Scene.topmost (d.chartLayers.flatMap (·.elements)) p ≠ some (.queue name) := by
    intro hchart
    obtain ⟨e, he, hqueue, -⟩ := Scene.exists_of_topmost hchart
    obtain ⟨layer, hlayer, he⟩ := List.mem_flatMap.1 he
    exact not_queue_of_mem_chartLayers hlayer he hqueue
  have hbackdrop : Scene.topmost
      ((Backdrop.grid d.width d.redraw.height :: d.ruleLayers).flatMap (·.elements)) p ≠ some (.queue name) := by
    intro hbelow
    obtain ⟨e, he, hqueue, -⟩ := Scene.exists_of_topmost hbelow
    obtain ⟨layer, hlayer, he⟩ := List.mem_flatMap.1 he
    rw [(drawn_of_mem_backdrop hlayer he).target] at hqueue
    cases hqueue
  rcases Option.or_eq_some_iff.1 htarget with hchart | ⟨-, hrest⟩
  · exact absurd hchart hcharts
  · rcases Option.or_eq_some_iff.1 hrest with htree | ⟨-, hbelow⟩
    · exact htree
    · exact absurd hbelow hbackdrop

omit [Trig α] in
/-- The layer of a tree is the same on every dashboard up to its colors. -/
theorem outline_treeLayer (d e : QueueDashboard α) (layout : TreeLayout α) :
    (d.treeLayer layout).elements.map Element.outline = (e.treeLayer layout).elements.map Element.outline := by
  have hrow : ∀ row : PlacedNode α, (d.nodeElements row).map Element.outline =
      (e.nodeElements row).map Element.outline := fun _ => rfl
  simp [treeLayer, List.map_flatMap, hrow]

/-- **One place means one queue.** With the same tree and folds, selection and width decide whether a chart
covers a queue, but not which queue it is. -/
theorem Fresh.queueAt_unique (hd : Fresh d) (he : Fresh e) (htree : d.tree = e.tree)
    (hfolded : d.folded = e.folded) (hname : d.queueAt p = some name) (hother : e.queueAt p = some other) :
    name = other := by
  have hlayout : d.layout = e.layout := by rw [hd.layout_eq, he.layout_eq, htree, hfolded]
  have htop := hd.topmost_tree hname
  rw [hlayout, Scene.topmost_congr (outline_treeLayer d e _), he.topmost_tree hother] at htop
  cases htop
  rfl

/-- What the pointer means depends on what the picture is drawn from, and not on the hover mark. -/
theorem Fresh.queueAt_congr (hd : Fresh d) (he : Fresh e) (h : Alike { d with hovered := e.hovered } e)
    (p : Point α) : d.queueAt p = e.queueAt p := by
  have hscene : d.scene.uncolored = e.scene.uncolored := by
    rw [← hd.scene_eq, ← redraw_uncolored d e.hovered, h.redraw.2.2, he.scene_eq]
  rw [queueAt, queueAt, Scene.targetAt_of_uncolored hscene]

end QueueDashboard

end QueueBoard
