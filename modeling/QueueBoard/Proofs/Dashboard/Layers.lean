import QueueBoard.Proofs.Dashboard.Elements
/-!
# Layers by their ids

What a fresh picture has under each id: the present layout's circles and labels, row by row, under that of the
tree (`centers_treeLayer`, `words_treeLayer`), and under the `i`-th chart's id the `i`-th chart of the plan
(`Fresh.layer_chart`), whose title can be read off (`PlannedChart.title?_render`).
-/

namespace QueueBoard

variable {α : Type}

/-! ## What can be read off a picture -/

/-- The center of a circle. -/
def Shape.center? : Shape α → Option (Point α)
  | .circle center _ => some center
  | _ => none

/-- Where a text is and what it says. -/
def Shape.words? : Shape α → Option (Point α × String)
  | .text label => some (label.position, label.text)
  | _ => none

/-- The text in the title's place. -/
def Layer.title? (l : Layer α) : Option String :=
  (l.elements.find? (·.style.role == some "chart-title")).bind fun e => e.shape.words?.map (·.2)

variable [Scalar α]

/-- What the connectors do not show is shown row by row. -/
theorem QueueDashboard.filterMap_treeLayer (d : QueueDashboard α) {β : Type} {f : Element α → Option β}
    {g : PlacedNode α → β} (layout : TreeLayout α)
    (hpath : ∀ e : Element α, (∃ path, e.shape = .path path) → f e = none)
    (hrow : ∀ row, (d.nodeElements row).filterMap f = [g row]) :
    (d.treeLayer layout).elements.filterMap f = layout.rows.map g := by
  have hconnectors : (layout.connectors.map fun c =>
      ((Element.ofShape (.path c.path)).stroke .connector 2).role "queue").filterMap f = [] := by
    rw [List.filterMap_eq_nil_iff]
    intro e he
    obtain ⟨c, -, rfl⟩ := List.mem_map.1 he
    exact hpath _ ⟨c.path, rfl⟩
  rw [treeLayer, List.filterMap_append, hconnectors, List.nil_append, List.filterMap_flatMap]
  simp only [hrow]
  exact List.map_eq_flatMap.symm

/-- The circles of the tree are the rows' places, from top to bottom. -/
theorem QueueDashboard.centers_treeLayer (d : QueueDashboard α) (layout : TreeLayout α) :
    (d.treeLayer layout).elements.filterMap (·.shape.center?) = layout.rows.map (·.position) := by
  refine filterMap_treeLayer d layout ?_ fun row => rfl
  rintro e ⟨path, hpath⟩
  rw [hpath]
  rfl

/-- The texts of the tree are the rows' labels, from top to bottom. -/
theorem QueueDashboard.words_treeLayer (d : QueueDashboard α) (layout : TreeLayout α) :
    (d.treeLayer layout).elements.filterMap (·.shape.words?) =
      layout.rows.map fun row => (row.labelAt, row.label) := by
  refine filterMap_treeLayer d layout ?_ fun row => rfl
  rintro e ⟨path, hpath⟩
  rw [hpath]
  rfl

variable [Trig α]

theorem PlannedChart.title?_render (c : PlannedChart α) (panel : Panel α) (palette : Palette) :
    (c.render panel palette).title? = some c.title := by
  unfold PlannedChart.render
  cases c.kind <;> rfl

theorem getElem?_renderPlan (palette : Palette) (plan : List (PlannedChart α)) (grid : PanelGrid α) (i : Nat) :
    (renderPlan palette plan grid).1[i]? =
      plan[i]?.map fun c => c.render (Panel.place (grid.allocated + i) grid.available grid.left) palette := by
  induction plan generalizing grid i with
  | nil => rfl
  | cons chart rest ih =>
    cases i with
    | zero => rfl
    | succ i =>
      rw [renderPlan, List.getElem?_cons_succ, ih, List.getElem?_cons_succ]
      simp only [PanelGrid.allocate, Nat.add_assoc, Nat.add_comm 1]

/-- What is true of one place in a list only is found there. -/
theorem find?_eq_getElem? {β : Type} {p : β → Bool} {xs : List β} {i : Nat}
    (h : ∀ j x, xs[j]? = some x → (p x = true ↔ j = i)) : xs.find? p = xs[i]? := by
  induction xs generalizing i with
  | nil => rfl
  | cons x xs ih =>
    have hx := h 0 x rfl
    cases i with
    | zero => rw [List.find?_cons_of_pos (hx.2 rfl), List.getElem?_cons_zero]
    | succ i =>
      rw [List.find?_cons_of_neg (fun hp => nomatch hx.1 hp), List.getElem?_cons_succ]
      refine ih fun j y hy => ?_
      rw [h (j + 1) y hy, Nat.succ_inj]

namespace QueueDashboard

variable {d : QueueDashboard α}

theorem chart_id_inj {i j : Nat} : "chart-" ++ toString i = "chart-" ++ toString j ↔ i = j := by
  rw [String.append_right_inj]
  refine ⟨fun h => ?_, fun h => by rw [h]⟩
  have hdigits : Nat.toDigits 10 i = Nat.toDigits 10 j := by
    simpa [toString, Nat.repr, ← String.toList_inj] using h
  rw [← Nat.ofDigitChars_toDigits (by omega : 1 < 10) (by omega) (n := i), hdigits,
    Nat.ofDigitChars_toDigits (by omega) (by omega)]

theorem chart_id_ne {i : Nat} {id : String} (h : id.toList.head? ≠ some 'c') : "chart-" ++ toString i ≠ id := by
  rintro rfl
  exact h (by simp)

theorem Fresh.layer_queues (h : Fresh d) : d.scene.layer? "queues" = some (d.treeLayer d.layout) := by
  have hlayout : d.redraw.layout = d.layout := h.layout_eq.symm
  have hnone : (Backdrop.grid d.width d.redraw.height :: d.ruleLayers).find? (·.id == "queues") = none := by
    rw [List.find?_eq_none]
    intro l hl
    simpa using d.id_ne_queues l hl
  rw [← h.scene_eq, Scene.layer?, redraw_layers, List.find?_append, hnone, Option.none_or, hlayout]
  exact List.find?_cons_of_pos rfl

/-- The charts are found by their numbers. -/
theorem Fresh.layer_chart (h : Fresh d) (i : Nat) : d.scene.layer? ("chart-" ++ toString i) =
    d.chartPlan[i]?.map fun c => c.render (d.panel i) d.palette := by
  have hcharts : d.chartLayers[i]? = d.chartPlan[i]?.map fun c => c.render (d.redraw.panel i) d.palette := by
    rw [chartLayers, getElem?_renderPlan]
    simp only [Nat.zero_add]
    rfl
  have hfind : d.chartLayers.find? (·.id == "chart-" ++ toString i) = d.chartLayers[i]? := by
    refine find?_eq_getElem? fun j layer hlayer => ?_
    rw [chartLayers, getElem?_renderPlan] at hlayer
    obtain ⟨c, -, rfl⟩ := Option.map_eq_some_iff.1 hlayer
    rw [PlannedChart.id_render, beq_iff_eq, chart_id_inj, Nat.zero_add]
    rfl
  have hnone : (Backdrop.grid d.width d.redraw.height :: d.ruleLayers).find? (·.id == "chart-" ++ toString i) =
      none := by
    rw [List.find?_eq_none]
    intro l hl hid
    have hids : l.id ∈ (Backdrop.grid d.width d.redraw.height :: d.ruleLayers).map (·.id) :=
      List.mem_map_of_mem hl
    rw [beq_iff_eq.1 hid, List.map_cons, ids_ruleLayers] at hids
    rcases List.mem_cons.1 hids with hgrid | hrule
    · exact chart_id_ne (show "grid".toList.head? ≠ some 'c' by decide) hgrid
    · split at hrule
      · cases hrule
      · exact chart_id_ne (by decide) (List.mem_singleton.1 hrule)
  have htree : ((d.treeLayer d.redraw.layout).id == "chart-" ++ toString i) = false :=
    beq_eq_false_iff_ne.2 fun hid =>
      chart_id_ne (show "queues".toList.head? ≠ some 'c' by decide) hid.symm
  rw [← h.scene_eq, Scene.layer?, redraw_layers, List.find?_append, hnone, Option.none_or,
    List.find?_cons_of_neg (by rw [htree]; decide), hfind, hcharts]
  simp only [h.panel_eq]

end QueueDashboard

end QueueBoard
