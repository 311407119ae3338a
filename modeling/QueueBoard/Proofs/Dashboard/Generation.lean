import QueueBoard.Proofs.Dashboard.Elements
import QueueBoard.Proofs.Scalar.Rational
/-!
# What the generation tells

Pictures are numbered as they are drawn, and hosts start the entrances again when the number grows. An
operation that does not draw is one of the pointer's, and those change the mark, the tooltip and the
fill of the tree's circles (`Still`). So two states with the same number show the same picture but for
that fill, and the pointer means the same everywhere on it (`run_generation`).
-/

namespace QueueBoard

variable {α : Type}

/-! ## Pictures without the color of circles -/

/-- The element, a circle without its fill. -/
def Element.uncolored (e : Element α) : Element α :=
  match e.shape with
  | .circle .. => { e with style := { e.style with fill := none } }
  | _ => e

/-- The layer, circles without their fill if it is the tree's. -/
def Layer.uncolored (l : Layer α) : Layer α :=
  if l.id = "queues" then { l with elements := l.elements.map Element.uncolored } else l

/-- The picture, circles of the tree without their fill. -/
def Scene.uncolored (s : Scene α) : Scene α := { s with layers := s.layers.map Layer.uncolored }

/-- What the pointer can meet: where it is, and what it means. -/
def Element.outline (e : Element α) : Shape α × Option (Target α) := (e.shape, e.target)

theorem Element.outline_uncolored (e : Element α) : e.uncolored.outline = e.outline := by
  unfold Element.uncolored
  split <;> rfl

theorem Layer.outline_uncolored (l : Layer α) :
    l.uncolored.elements.map Element.outline = l.elements.map Element.outline := by
  unfold Layer.uncolored
  split
  · rw [List.map_map]
    exact List.map_congr_left fun e _ => e.outline_uncolored
  · rfl

theorem Scene.outline_uncolored (s : Scene α) :
    s.uncolored.elements.map Element.outline = s.elements.map Element.outline := by
  simp [Scene.elements, Scene.uncolored, List.map_flatMap, List.flatMap_map, Layer.outline_uncolored]

section

variable [Scalar α] [Trig α]

theorem Scene.topmost_congr {elements elements' : List (Element α)}
    (h : elements.map Element.outline = elements'.map Element.outline) (p : Point α) :
    topmost elements p = topmost elements' p := by
  have houtline : ∀ elements : List (Element α), topmost elements p =
      ((elements.map Element.outline).reverse.find? fun o => o.2.isSome && o.1.contains p).bind (·.2) := by
    intro elements
    rw [← List.map_reverse, List.find?_map, Option.bind_map]
    rfl
  rw [houtline, houtline, h]

theorem Scene.targetAt_of_uncolored {s s' : Scene α} (h : s.uncolored = s'.uncolored) (p : Point α) :
    s.targetAt p = s'.targetAt p := by
  refine Scene.topmost_congr ?_ p
  rw [← s.outline_uncolored, h, s'.outline_uncolored]

/-- Tracking again where the pointer is already changes nothing, even over a value that is not equal to
itself. -/
theorem TooltipController.track_track (c : TooltipController α) (s : Scene α) (p : Point α) :
    (c.track s p).track s p = c.track s p := by
  have off : (∀ c : TooltipController α, c.track s p =
      if c.hovered.isSome || c.tooltip.isVisible then c.leave else c) →
        (c.track s p).track s p = c.track s p := by
    intro htrack
    rw [htrack, htrack]
    by_cases hshown : (c.hovered.isSome || c.tooltip.isVisible) = true
    · rw [if_pos hshown]
      split <;> rfl
    · rw [if_neg hshown, if_neg hshown]
  match hhit : s.targetAt p with
  | none => exact off fun c => by rw [track, hhit]
  | some (.queue _) => exact off fun c => by rw [track, hhit]
  | some (.datum datum) =>
    have htrack : ∀ c : TooltipController α, c.track s p =
        { tooltip := ⟨Tooltip.place p, 0.9, datum.describe⟩
          hovered := if c.hovered.any (·.same (.datum datum)) then c.hovered else some (.datum datum) } := by
      intro c
      rw [track, hhit]
      by_cases hknown : c.hovered.any (·.same (.datum datum)) = true <;> simp [hknown, move]
    rw [htrack, htrack]
    by_cases hknown : c.hovered.any (·.same (.datum datum)) = true <;> simp [hknown]

end

namespace QueueDashboard

section

variable [Scalar α]

theorem treeLayer_uncolored (d : QueueDashboard α) (name : Option String) (layout : TreeLayout α) :
    (treeLayer { d with hovered := name } layout).uncolored = (d.treeLayer layout).uncolored := by
  have hrow : ∀ row : PlacedNode α, (nodeElements { d with hovered := name } row).map Element.uncolored =
      (d.nodeElements row).map Element.uncolored := fun _ => rfl
  simp [Layer.uncolored, treeLayer, List.map_flatMap, hrow]

theorem generation_pointerLeft (d : QueueDashboard α) : d.pointerLeft.generation = d.generation := by
  rw [pointerLeft_eq, hover_frame]

end

/-- Nothing but the pointer's work lies between two states: its mark, its tooltip, and the color of
circles of the tree. -/
structure Still (d e : QueueDashboard α) : Prop where
  state : e = { d with hovered := e.hovered, tooltip := e.tooltip, scene := e.scene }
  scene : e.scene.uncolored = d.scene.uncolored

theorem Still.refl (d : QueueDashboard α) : Still d d := ⟨rfl, rfl⟩

theorem Still.trans {c d e : QueueDashboard α} (h : Still c d) (h' : Still d e) : Still c e := by
  refine ⟨?_, h'.scene.trans h.scene⟩
  rw [h'.state, h.state]

variable [Scalar α] [Trig α] {d e : QueueDashboard α}

/-! ## The pointer -/

theorem redraw_uncolored (d : QueueDashboard α) (name : Option String) :
    (redraw { d with hovered := name }).scene.uncolored = d.redraw.scene.uncolored := by
  have hlayers : (redraw { d with hovered := name }).scene.layers.map Layer.uncolored =
      d.redraw.scene.layers.map Layer.uncolored := by
    rw [redraw_layers, redraw_layers, List.map_append, List.map_append, List.map_cons, List.map_cons,
      treeLayer_uncolored]
    rfl
  rw [Scene.uncolored, hlayers]
  rfl

/-- On a fresh picture hovering recolors circles of the tree and nothing else. -/
theorem Fresh.hover_uncolored (h : Fresh d) (name : Option String) :
    (d.hover name).scene.uncolored = d.scene.uncolored := by
  have halike : Alike (d.hover name) { d with hovered := name } := by
    rw [hover_frame]
    exact ⟨rfl, rfl, rfl, rfl, rfl, rfl⟩
  rw [← (h.hover name).scene_eq, halike.redraw.2.2, redraw_uncolored, h.scene_eq]

theorem Fresh.queueAt_hover (h : Fresh d) (name : Option String) (p : Point α) :
    (d.hover name).queueAt p = d.queueAt p := by
  rw [queueAt, Scene.targetAt_of_uncolored (h.hover_uncolored name), queueAt]

theorem generation_pointerMoved (d : QueueDashboard α) (p : Point α) :
    (d.pointerMoved p).generation = d.generation := by
  rw [pointerMoved, hover_frame]

theorem Fresh.pointerMoved_again (h : Fresh d) (p : Point α) :
    (d.pointerMoved p).pointerMoved p = d.pointerMoved p := by
  have hhovered : (d.pointerMoved p).hovered = d.queueAt p := by rw [pointerMoved, hover_frame]
  have hqueue : (d.pointerMoved p).queueAt p = d.queueAt p := h.queueAt_hover (d.queueAt p) p
  have hstay : (d.pointerMoved p).hover ((d.pointerMoved p).queueAt p) = d.pointerMoved p := by
    rw [hqueue, ← hhovered, hover_self]
  have htrack : ((d.pointerMoved p).tooltip.track (d.pointerMoved p).scene p) =
      (d.pointerMoved p).tooltip := TooltipController.track_track _ _ _
  rw [pointerMoved, hstay, htrack]

/-! ## Pictures of one generation -/

/-- An operation counts a picture or leaves it still. -/
theorem Fresh.apply_still (h : Fresh d) (op : Operation α) :
    (d.apply op).generation = d.generation + 1 ∨
      (d.apply op).generation = d.generation ∧ Still d (d.apply op) := by
  rcases d.apply_cases op with ⟨e, he, hgeneration⟩ | ⟨name, tooltip, he⟩
  · left
    rw [he, ← hgeneration]
    rfl
  · right
    have hscene : (d.apply op).scene.uncolored = d.scene.uncolored := by
      rw [he]
      exact h.hover_uncolored name
    have hstate : d.apply op = { d with hovered := name, tooltip, scene := (d.apply op).scene } := by
      rw [he, hover_frame]
    refine ⟨by rw [hstate], ?_, hscene⟩
    rw [hstate]

/-- Numbers do not go back, and while they stay the picture is still. -/
theorem Fresh.foldl_still (h : Fresh d) (ops : List (Operation α)) :
    d.generation ≤ (ops.foldl apply d).generation ∧
      ((ops.foldl apply d).generation = d.generation → Still d (ops.foldl apply d)) := by
  induction ops generalizing d with
  | nil => exact ⟨Nat.le_refl _, fun _ => .refl d⟩
  | cons op ops ih =>
    rw [List.foldl_cons]
    obtain ⟨hle, hstill⟩ := ih (apply_fresh h op)
    -- once a picture is counted, the number at the end is above the one at the start
    rcases h.apply_still op with hdrawn | ⟨hkept, hstep⟩
    · exact ⟨by omega, fun hsame => absurd hsame (by omega)⟩
    · exact ⟨by omega, fun hsame => hstep.trans (hstill (by omega))⟩

/-- **The generation identifies the animated picture.** Operations that lead from a state to one with
the same number leave everything but the pointer's marks as it was, the scene up to the fill of circles
in the layer of the tree, and every point of it means the same. The pointer never counts a picture, and
pointing twice at one place is pointing once. -/
theorem run_generation (width : α) (before between : List (Operation α)) :
    let d := run width before
    let e := run width (before ++ between)
    (e.generation = d.generation →
      e = { d with hovered := e.hovered, tooltip := e.tooltip, scene := e.scene } ∧
        e.scene.uncolored = d.scene.uncolored ∧ ∀ p, e.scene.targetAt p = d.scene.targetAt p) ∧
      d.pointerLeft.generation = d.generation ∧
      ∀ p, (d.pointerMoved p).generation = d.generation ∧
        (d.pointerMoved p).pointerMoved p = d.pointerMoved p := by
  intro d e
  have hd : Fresh d := fresh_run width before
  refine ⟨fun hsame => ?_, d.generation_pointerLeft, fun p => ?_⟩
  · have he : e = between.foldl apply d := run_append width before between
    have hstill : Still d e := by
      rw [he] at hsame ⊢
      exact (hd.foldl_still between).2 hsame
    exact ⟨hstill.state, hstill.scene, Scene.targetAt_of_uncolored hstill.scene⟩
  · exact ⟨d.generation_pointerMoved p, hd.pointerMoved_again p⟩

/-- The pointer on a circle, a leaf that does not fold and the width there is already: another color,
the same picture. -/
theorem run_generation_hover :
    letI : Trig ℚ := .rational
    let records : List (QueueRecord ℚ) :=
      [{ QueueRecord.named "root" with children := ["a"] }, QueueRecord.named "a"]
    let before : List (Operation ℚ) := [.load records]
    let between : List (Operation ℚ) := [.pointerMoved ⟨50, 50⟩, .toggleFold "a", .resize 1200]
    let d := run 1200 before
    let e := run 1200 (before ++ between)
    e.generation = d.generation ∧ e.scene ≠ d.scene ∧ e.scene.uncolored = d.scene.uncolored ∧
      ∀ p, e.scene.targetAt p = d.scene.targetAt p := by
  let trig : Trig ℚ := .rational
  intro records before between d e
  have hsame : e.generation = d.generation := by decide +kernel
  have hcolor : e.scene ≠ d.scene := by decide +kernel
  obtain ⟨-, hscene, htarget⟩ := (run_generation 1200 before between).1 hsame
  exact ⟨hsame, hcolor, hscene, htarget⟩

end QueueDashboard

end QueueBoard
