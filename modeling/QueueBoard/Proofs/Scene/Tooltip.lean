import QueueBoard.Proofs.Scene.Hit
import QueueBoard.Scalar.Float
import QueueBoard.Scene.Tooltip
import Mathlib.Data.List.Induction
/-!
# Tooltips have no memory

The controller remembers the target that it tells of, and does other things when the pointer comes onto a
datum, moves on it or leaves it. None of this is seen: after any calls, what the pointer is on last decides
what is told (`TooltipController.calls_track`).
-/

namespace QueueBoard

variable {α : Type} [Scalar α] [Trig α]

/-! ## The last element in paint order -/

namespace Scene

/-- The elements under a point that have a target, in paint order. -/
def aimedAt (s : Scene α) (p : Point α) : List (Element α) :=
  s.elements.filter fun e => e.target.isSome && e.shape.contains p

/-- The target under a point is that of the last element painted there. -/
theorem targetAt_eq_some_iff {s : Scene α} {p : Point α} {target : Target α} :
    s.targetAt p = some target ↔ ∃ e, (s.aimedAt p).getLast? = some e ∧ e.target = some target := by
  rw [targetAt, Option.bind_eq_some_iff, aimedAt, List.getLast?_filter]
  rfl

end Scene

namespace TooltipController

/-! ## Calls -/

/-- One use of a controller. -/
inductive Call (α : Type) where
  | track (scene : Scene α) (pointer : Point α)
  | leave
  | reset

/-- The controller after a call. -/
def call (c : TooltipController α) : Call α → TooltipController α
  | .track scene pointer => c.track scene pointer
  | .leave => c.leave
  | .reset => fresh

/-- A new controller after some calls. -/
def calls (cs : List (Call α)) : TooltipController α := cs.foldl call fresh

variable {scene : Scene α} {p : Point α}

/-- On a datum the label tells it, and the controller remembers a target, be it this one or one that is the
same. -/
theorem track_datum {datum : Datum α} (h : scene.targetAt p = some (.datum datum)) (c : TooltipController α) :
    (c.track scene p).tooltip = ⟨p.offset 0 (-28), 0.9, datum.describe⟩ ∧
      (c.track scene p).hovered.isSome = true := by
  simp only [track, h]
  refine ⟨rfl, ?_⟩
  split
  · rename_i hknown
    obtain ⟨target, htarget, -⟩ := Option.any_eq_true _ _ |>.1 hknown
    exact Option.isSome_of_eq_some htarget
  · rfl

/-- Off every datum nothing is told and nothing remembered. -/
theorem track_aside (hzero : ¬ (0 : α) < 0) (h : ∀ datum, scene.targetAt p ≠ some (.datum datum))
    (c : TooltipController α) :
    (c.track scene p).tooltip.isVisible = false ∧ (c.track scene p).hovered.isSome = false := by
  unfold track
  split
  · rename_i datum hdatum
    exact absurd hdatum (h datum)
  · by_cases hshown : (c.hovered.isSome || c.tooltip.isVisible) = true
    · rw [if_pos hshown]
      exact ⟨decide_eq_false hzero, rfl⟩
    · rw [if_neg hshown]
      rw [Bool.or_eq_true, not_or, Bool.not_eq_true, Bool.not_eq_true] at hshown
      exact hshown.symm

/-- A label with the opacity of those that are told is drawn. -/
theorem isVisible_track (hzero : ¬ (0 : α) < 0) (hshown : (0 : α) < 0.9) (c : TooltipController α) :
    (c.track scene p).tooltip.isVisible = true ↔ ∃ datum, scene.targetAt p = some (.datum datum) := by
  constructor
  · intro hvisible
    by_contra hnone
    have haside := (c.track_aside hzero (not_exists.1 hnone)).1
    rw [hvisible] at haside
    cases haside
  · rintro ⟨datum, hdatum⟩
    rw [Tooltip.isVisible, (c.track_datum hdatum).1]
    exact decide_eq_true hshown

/-! ## Runs -/

/-- Whatever was before a call, after it a target is remembered just if the label is drawn. -/
theorem hovered_call (hzero : ¬ (0 : α) < 0) (hshown : (0 : α) < 0.9) (c : TooltipController α) (last : Call α) :
    (c.call last).hovered.isSome = (c.call last).tooltip.isVisible := by
  have hhidden : false = decide ((0 : α) < 0) := (decide_eq_false hzero).symm
  cases last with
  | track scene p =>
    rw [call]
    by_cases h : ∃ datum, scene.targetAt p = some (.datum datum)
    · obtain ⟨datum, hdatum⟩ := h
      rw [(c.track_datum hdatum).2, (c.isVisible_track hzero hshown).2 ⟨datum, hdatum⟩]
    · obtain ⟨hvisible, hhovered⟩ := c.track_aside hzero (not_exists.1 h)
      rw [hvisible, hhovered]
  | leave => exact hhidden
  | reset => exact hhidden

theorem hovered_calls (hzero : ¬ (0 : α) < 0) (hshown : (0 : α) < 0.9) (cs : List (Call α)) :
    (calls cs).hovered.isSome = (calls cs).tooltip.isVisible := by
  cases cs using List.reverseRecOn with
  | nil => exact (decide_eq_false hzero).symm
  | append_singleton earlier last =>
    rw [calls, List.foldl_concat]
    exact hovered_call hzero hshown _ last

/-- **Where the pointer is decides, whatever happened before.** After any calls, the pointer coming to a point
of a scene shows the label just if the last element painted there among those with a target means a datum, and
then the label tells this datum, a little above the point. At all times a target is remembered just if the
label shows. It is enough that zero is no opacity to be seen and that of a label is one. -/
theorem calls_track (hzero : ¬ (0 : α) < 0) (hshown : (0 : α) < 0.9) (earlier : List (Call α)) :
    (calls earlier).hovered.isSome = (calls earlier).tooltip.isVisible ∧
    ∀ (scene : Scene α) (p : Point α),
      let told := (calls (earlier ++ [.track scene p])).tooltip
      (told.isVisible = true ↔
        ∃ e datum, (scene.aimedAt p).getLast? = some e ∧ e.target = some (.datum datum)) ∧
      ∀ e datum, (scene.aimedAt p).getLast? = some e → e.target = some (.datum datum) →
        told.text = datum.describe ∧ told.position = p.offset 0 (-28) := by
  refine ⟨hovered_calls hzero hshown earlier, fun scene p => ?_⟩
  have htold : calls (earlier ++ [.track scene p]) = (calls earlier).track scene p := List.foldl_concat ..
  rw [htold]
  refine ⟨?_, fun e datum he hdatum => ?_⟩
  · rw [isVisible_track hzero hshown, exists_comm]
    exact exists_congr fun datum => Scene.targetAt_eq_some_iff
  · have htarget : scene.targetAt p = some (.datum datum) := Scene.targetAt_eq_some_iff.2 ⟨e, he, hdatum⟩
    rw [((calls earlier).track_datum htarget).1]
    exact ⟨rfl, rfl⟩

/-- With floats: a bar half covered by a queue, reached after another scene and a reset. -/
theorem calls_track_bar :
    let bar : Element Float := (Element.ofShape (.rect ⟨0, 0⟩ 50 50)).bind ⟨"a", 3⟩
    let node : Element Float := (Element.ofShape (.rect ⟨0, 0⟩ 20 50)).aim (.queue "root")
    let scene : Scene Float :=
      { width := 200, height := 200, layers := [{ id := "chart-0", elements := [bar, node] }] }
    let earlier : List (Call Float) :=
      [.track scene ⟨30, 10⟩, .leave, .reset, .track { scene with layers := [] } ⟨30, 10⟩, .track scene ⟨40, 10⟩]
    let on := (calls (earlier ++ [.track scene ⟨30, 10⟩])).tooltip
    let covered := (calls (earlier ++ [.track scene ⟨10, 10⟩])).tooltip
    ¬ (0 : Float) < 0 ∧ (0 : Float) < 0.9 ∧
      (calls earlier).hovered.isSome = (calls earlier).tooltip.isVisible ∧
      on.isVisible = true ∧ on.text = Datum.describe ⟨"a", (3 : Float)⟩ ∧
      on.position = Point.offset ⟨30, 10⟩ 0 (-28) ∧ covered.isVisible = false := by
  intro bar node scene earlier on covered
  have hzero : ¬ (0 : Float) < 0 := by decide
  have hshown : (0 : Float) < 0.9 := by decide
  obtain ⟨hremembered, htold⟩ := calls_track hzero hshown earlier
  have hbar : (scene.aimedAt ⟨30, 10⟩).getLast? = some bar := rfl
  have hnode : (scene.aimedAt ⟨10, 10⟩).getLast? = some node := rfl
  obtain ⟨htext, hposition⟩ := (htold scene ⟨30, 10⟩).2 bar ⟨"a", 3⟩ hbar rfl
  refine ⟨hzero, hshown, hremembered, (htold scene ⟨30, 10⟩).1.2 ⟨bar, _, hbar, rfl⟩, htext, hposition, ?_⟩
  refine Bool.eq_false_iff.2 fun hvisible => ?_
  obtain ⟨e, datum, he, hdatum⟩ := (htold scene ⟨10, 10⟩).1.1 hvisible
  cases hnode.symm.trans he
  cases hdatum

end TooltipController

end QueueBoard
