import QueueBoard.Proofs.Scene.Easing
/-!
# Entrances

In exact arithmetic. An element on its way looks as in its final state, but for the width of a rectangle that
grows or the angles of a sector that sweeps, which are the eased part of the final ones
(`Element.sampledShape_onItsWay`). A picture that has stopped moving never moves again, and is drawn as it stays
(`entrances_settle`).
-/

namespace QueueBoard

/-! ## One element -/

namespace Element

/-- What an element looks like some time after the picture was drawn. -/
inductive OnItsWay (e : Element ℚ) (elapsed : Duration) : Shape ℚ → Prop
  /-- Its left edge stays, and its right edge is the eased part of the way from there. -/
  | grown {origin : Point ℚ} {width height : ℚ} {duration : Duration} :
      e.shape = .rect origin width height → e.transition = some ⟨.growWidth, duration⟩ →
      OnItsWay e elapsed
        (.rect origin (width * Transition.progress ⟨.growWidth, duration⟩ elapsed) height)
  /-- Both its angles are the eased part of the final ones. -/
  | swept {sector : Sector ℚ} {duration : Duration} :
      e.shape = .sector sector → e.transition = some ⟨.sweepAngles, duration⟩ →
      OnItsWay e elapsed
        (.sector { sector with
          start := sector.start * Transition.progress ⟨.sweepAngles, duration⟩ elapsed
          finish := sector.finish * Transition.progress ⟨.sweepAngles, duration⟩ elapsed })
  /-- Nothing else moves. -/
  | still : e.moves = false → OnItsWay e elapsed e.shape

theorem sampledShape_onItsWay (e : Element ℚ) (elapsed : Duration) :
    e.OnItsWay elapsed (e.sampledShape elapsed) := by
  have hlerp : ∀ x part : ℚ, lerp 0 x part = x * part := fun x part => by simp [lerp]
  cases hmoves : e.moves with
  | false =>
    rw [sampledShape_of_not_moves hmoves]
    exact .still hmoves
  | true =>
    obtain ⟨shape, style, target, transition⟩ := e
    unfold moves at hmoves
    split at hmoves
    case h_1 origin width height duration hshape htransition =>
      dsimp only at hshape htransition
      subst hshape htransition
      have hgrown : OnItsWay ⟨.rect origin width height, style, target, some ⟨.growWidth, duration⟩⟩ elapsed _ :=
        .grown rfl rfl
      rwa [← hlerp] at hgrown
    case h_2 sector duration hshape htransition =>
      dsimp only at hshape htransition
      subst hshape htransition
      have hswept : OnItsWay ⟨.sector sector, style, target, some ⟨.sweepAngles, duration⟩⟩ elapsed _ :=
        .swept rfl rfl
      rwa [← hlerp, ← hlerp] at hswept
    case h_3 => cases hmoves

end Element

/-! ## The picture -/

namespace Scene

variable {scene : Scene ℚ} {elapsed : Duration}

theorem isAnimating_eq_false_iff : scene.isAnimating elapsed = false ↔
    ∀ e ∈ scene.elements, ∀ transition, e.transition = some transition →
      transition.duration.nanos ≤ elapsed.nanos := by
  simp [isAnimating, Transition.isFinished, Option.any_eq_false]

/-- What has stopped moving is drawn as it stays. -/
theorem sampledShape_of_not_animating (h : scene.isAnimating elapsed = false) {e : Element ℚ}
    (he : e ∈ scene.elements) : e.sampledShape elapsed = e.shape := by
  cases htransition : e.transition with
  | none => rw [Element.sampledShape, htransition]
  | some transition =>
    exact Element.sampledShape_finished htransition (isAnimating_eq_false_iff.1 h e he transition htransition)

end Scene

/-- **Entrances go on to the final picture and stay there.** The eased part of the way is between nothing and
the whole, never goes back, and is the whole once the duration is over. An element looks as it ends, but for
the width or the angles that its transition moves, which are that part of the final ones. Once nothing in a
picture is moving, nothing ever is again, and every element looks as it ends. -/
theorem entrances_settle (s t : Duration) (h : s.nanos ≤ t.nanos) :
    (∀ transition : Transition,
      0 ≤ (transition.progress s : ℚ) ∧ (transition.progress s : ℚ) ≤ transition.progress t ∧
        (transition.progress t : ℚ) ≤ 1 ∧
        (transition.duration.nanos ≤ t.nanos → (transition.progress t : ℚ) = 1)) ∧
    (∀ e : Element ℚ, e.OnItsWay s (e.sampledShape s) ∧ e.OnItsWay t (e.sampledShape t)) ∧
    ∀ scene : Scene ℚ, scene.isAnimating s = false →
      scene.isAnimating t = false ∧ ∀ e ∈ scene.elements, e.sampledShape t = e.shape := by
  refine ⟨fun transition => ⟨(transition.progress_mem s).1, transition.progress_mono h,
    (transition.progress_mem t).2, transition.progress_of_le t⟩,
    fun e => ⟨e.sampledShape_onItsWay s, e.sampledShape_onItsWay t⟩, fun scene hstill => ?_⟩
  have hlater : scene.isAnimating t = false := Scene.isAnimating_eq_false_iff.2 fun e he transition htransition =>
    (Scene.isAnimating_eq_false_iff.1 hstill e he transition htransition).trans h
  exact ⟨hlater, fun e he => Scene.sampledShape_of_not_animating hlater he⟩

/-- A bar that grows for half a second, and a wedge that is there at once. -/
theorem entrances_settle_chart :
    let bar : Element ℚ := (Element.ofShape (.rect ⟨5, 5⟩ 200 30)).enter ⟨.growWidth, entrance⟩
    let wedge : Element ℚ := (Element.ofShape (.sector ⟨⟨90, 90⟩, 30, 60, 1, 3⟩)).enter ⟨.sweepAngles, ⟨0⟩⟩
    let scene : Scene ℚ :=
      { width := 210, height := 150, layers := [{ id := "chart-0", elements := [bar, wedge] }] }
    entrance.nanos ≤ (Duration.millis 600).nanos ∧ scene.isAnimating (.millis 499) = true ∧
      scene.isAnimating entrance = false ∧ scene.isAnimating (.millis 600) = false ∧
      bar.sampledShape (.millis 600) = bar.shape ∧ wedge.sampledShape (.millis 600) = wedge.shape := by
  intro bar wedge scene
  have hlater : entrance.nanos ≤ (Duration.millis 600).nanos := by decide
  have hstill : scene.isAnimating entrance = false := by decide +kernel
  obtain ⟨-, -, hsettled⟩ := entrances_settle entrance (.millis 600) hlater
  obtain ⟨hnever, hshape⟩ := hsettled scene hstill
  exact ⟨hlater, by decide +kernel, hstill, hnever, hshape bar (by simp [scene, Scene.elements]),
    hshape wedge (by simp [scene, Scene.elements])⟩

end QueueBoard
