import Mathlib.Tactic.FieldSimp
import Mathlib.Tactic.NormNum
import QueueBoard.Proofs.Decimal.Digits
import QueueBoard.Proofs.Scene.Markup
import QueueBoard.Proofs.Text.Splitting
/-!
# Animated and still pictures

A picture with animations is the still one, but for the tags of the elements that move: those whose
transition fits their shape (`document_animated`). In exact arithmetic such an element is drawn as it is at
the start, and its animation ends at what the still picture shows (`animated_agrees`).
-/

namespace QueueBoard

/-! ## The elements that move -/

variable {α : Type} [Scalar α]

namespace Element

/-- The element enters in a way that its shape can take. -/
def moves (e : Element α) : Bool :=
  match e.shape, e.transition with
  | .rect .., some ⟨.growWidth, _⟩ => true
  | .sector _, some ⟨.sweepAngles, _⟩ => true
  | _, _ => false

/-- The element without its transition. -/
def still (e : Element α) : Element α := { e with transition := none }

theorem sampledShape_of_not_moves {e : Element α} (h : e.moves = false) (elapsed : Duration) :
    e.sampledShape elapsed = e.shape := by
  obtain ⟨shape, style, target, transition⟩ := e
  cases transition with
  | none => rfl
  | some transition =>
    obtain ⟨kind, duration⟩ := transition
    cases shape <;> cases kind <;> first | rfl | cases h

end Element

/-- The layer with all its elements in their final state. -/
def Layer.still (l : Layer α) : Layer α := { l with elements := l.elements.map Element.still }

/-- The picture with all its elements in their final state. -/
def Scene.still (s : Scene α) : Scene α := { s with layers := s.layers.map Layer.still }

namespace Svg

open Markup

/-! ## One tag for each element -/

/-- The layer drawn with a tag for each element. -/
def group (draw : Element α → Node) (l : Layer α) : Node :=
  .element "g" [{ name := "id", value := l.id }] (lines draw l.elements)

/-- The picture drawn with a tag for each element. -/
def page (draw : Element α → Node) (scene : Scene α) : Node :=
  let w := Coordinate.text scene.width
  let h := Coordinate.text scene.height
  .element "svg"
    [{ name := "xmlns", value := "http://www.w3.org/2000/svg" }, { name := "width", value := w },
      { name := "height", value := h }, { name := "viewBox", value := "0 0 " ++ w ++ " " ++ h },
      { name := "font-family", value := "sans-serif" }, { name := "font-size", value := "12" }]
    (lines (group draw) scene.layers)

theorem page_still (draw : Element α → Node) (scene : Scene α) :
    page draw scene.still = page (fun e => draw e.still) scene := by
  simp [page, group, lines, Scene.still, Layer.still, List.flatMap_map]

variable [Trig α]

theorem document_eq_page (animated : Bool) (scene : Scene α) :
    document animated scene = page (element animated) scene := rfl

theorem element_still (animated : Bool) (e : Element α) : element animated e.still = element false e := by
  cases animated <;> rfl

theorem animation_of_not_moves {e : Element α} (h : e.moves = false) : animation e = [] := by
  obtain ⟨shape, style, target, transition⟩ := e
  cases transition with
  | none => rfl
  | some transition =>
    obtain ⟨kind, duration⟩ := transition
    cases shape <;> cases kind <;> first | rfl | cases h

/-- Only an element that moves is drawn otherwise. -/
theorem element_of_not_moves {e : Element α} (h : e.moves = false) : element true e = element false e := by
  simp [element, animation_of_not_moves h, Element.sampledShape_of_not_moves h]

/-- A picture with animations is the still one with other tags for the elements that move. -/
theorem document_animated (scene : Scene α) :
    document true scene = page (fun e => if e.moves then element true e else element false e) scene := by
  rw [document_eq_page]
  congr 1
  funext e
  by_cases h : e.moves = true
  · rw [if_pos h]
  · rw [if_neg h, element_of_not_moves (by simpa using h)]

end Svg

/-! ## The end of a movement in exact arithmetic -/

theorem lerp_one (x : ℚ) : lerp 0 x (1 : ℚ) = x := by simp [lerp]

theorem Decimal.roundHalfEven_mul (n : Nat) {den : Nat} (h : 0 < den) : roundHalfEven (n * den) den = n := by
  simp [roundHalfEven, h]

namespace Duration

theorem seconds_rat (d : Duration) : (d.seconds : ℚ) = (d.nanos : ℚ) / 1000000000 := by
  have hsplit : ((1000000000 * (d.nanos / 1000000000) + d.nanos % 1000000000 : Nat) : ℚ) = (d.nanos : ℚ) := by
    rw [Nat.div_add_mod]
  simp only [seconds, Scalar.ofNat_rat, nanosPerSecond]
  push_cast at hsplit ⊢
  field_simp
  linarith

theorem nanoseconds_seconds (d : Duration) : Scalar.nanoseconds (d.seconds : ℚ) = d.nanos := by
  have hnonneg : 0 ≤ (d.seconds : ℚ).num := by
    rw [Rat.num_nonneg, seconds_rat]
    exact div_nonneg (Nat.cast_nonneg _) (by norm_num)
  have hfraction : ((d.seconds : ℚ).num : ℚ) / (d.seconds : ℚ).den = (d.nanos : ℚ) / 1000000000 := by
    rw [Rat.num_div_den, seconds_rat]
  have hden : ((d.seconds : ℚ).den : ℚ) ≠ 0 := by exact_mod_cast (d.seconds : ℚ).den_nz
  have hcross : (d.seconds : ℚ).num * 1000000000 = d.nanos * (d.seconds : ℚ).den := by
    rw [div_eq_div_iff hden (by norm_num)] at hfraction
    exact_mod_cast hfraction
  have hnat : (d.seconds : ℚ).num.toNat * 1000000000 = d.nanos * (d.seconds : ℚ).den := by omega
  show Decimal.roundHalfEven ((d.seconds : ℚ).num.toNat * 1000000000) (d.seconds : ℚ).den = d.nanos
  rw [hnat, Decimal.roundHalfEven_mul _ (Rat.den_pos _)]

theorem scale_one (d : Duration) : d.scale (1 : ℚ) = d := by
  rw [scale, one_mul, nanoseconds_seconds]

end Duration

/-- At its end an element is where it stays. -/
theorem Element.sampledShape_finished {e : Element ℚ} {t : Transition} (ht : e.transition = some t)
    {elapsed : Duration} (h : t.duration.nanos ≤ elapsed.nanos) : e.sampledShape elapsed = e.shape := by
  obtain ⟨shape, style, target, transition⟩ := e
  obtain ⟨kind, duration⟩ := t
  subst ht
  have hprogress : (Transition.progress ⟨kind, duration⟩ elapsed : ℚ) = 1 := if_pos (Or.inr h)
  cases shape with
  | rect origin width height =>
    cases kind with
    | growWidth =>
      show Shape.rect origin (lerp 0 width (Transition.progress ⟨.growWidth, duration⟩ elapsed)) height = _
      rw [hprogress, lerp_one]
    | sweepAngles => rfl
  | sector s =>
    cases kind with
    | growWidth => rfl
    | sweepAngles =>
      let t : ℚ := Transition.progress ⟨.sweepAngles, duration⟩ elapsed
      show Shape.sector (s.withAngles (lerp 0 s.start t) (lerp 0 s.finish t)) = _
      rw [show t = 1 from hprogress, lerp_one, lerp_one]
      rfl
  | _ => cases kind <;> rfl

/-! ## Key frames -/

namespace Coordinate

theorem mem_of_mem_dropTrailing {c d : Char} {text : List Char} (h : c ∈ dropTrailing d text) : c ∈ text := by
  rw [dropTrailing, List.mem_reverse] at h
  exact List.mem_reverse.1 ((List.dropWhile_sublist _).subset h)

theorem mem_text {v : ℚ} {c : Char} (h : c ∈ (text v).toList) : c.isDigit = true ∨ c = '.' ∨ c = '-' := by
  have hfixed : ∀ c ∈ (Scalar.fixedText 2 v).toList, c.isDigit = true ∨ c = '.' ∨ c = '-' := by
    intro c hc
    rw [show Scalar.fixedText 2 v = Decimal.fixedText (decide (v < 0)) v.num.natAbs v.den 2 from rfl,
      Decimal.fixedText, String.toList_append, List.mem_append] at hc
    rcases hc with hc | hc
    · split at hc <;> simp_all
    · exact (Decimal.mem_placed hc).imp_right Or.inl
  rw [text, String.toList_ofList, compact] at h
  split at h
  · exact Or.inl (by simp_all)
  · exact hfixed c (mem_of_mem_dropTrailing (mem_of_mem_dropTrailing h))

theorem semicolon_notMem (v : ℚ) : ';' ∉ (text v).toList := fun h => absurd (mem_text h) (by decide)

end Coordinate

namespace Sector

theorem semicolon_notMem_arcText (radius : ℚ) (large clockwise : Bool) (finish : Point ℚ) :
    ';' ∉ (arcText radius large clockwise finish).toList := by
  cases large <;> cases clockwise <;> simp [arcText, Point.text, Coordinate.semicolon_notMem]

variable [Trig ℚ]

theorem semicolon_notMem (s : Sector ℚ) : ';' ∉ s.text.toList := by
  unfold Sector.text
  split <;> simp [semicolon_notMem_arcText, Point.text, Coordinate.semicolon_notMem]

end Sector

namespace Svg

open Markup

/-- The values that an animation runs through. -/
def keyFrames (tag : Node) : List String :=
  (((tag.attribute? "values").getD "").toList.splitOn ';').map String.ofList

theorem keyFrames_intercalate {tag : Node} {texts : List String}
    (hvalues : tag.attribute? "values" = some (";".intercalate texts)) (hne : texts ≠ [])
    (h : ∀ text ∈ texts, ';' ∉ text.toList) : keyFrames tag = texts := by
  have hsplit : (";".intercalate texts).splitOn ";" = texts := Text.splitOn_intercalate h hne
  rw [keyFrames, hvalues, Option.getD_some, ← Text.splitOn_singleton]
  exact hsplit

variable [Trig ℚ]

/-- The outlines of a sector that sweeps, each a text without a semicolon. -/
theorem sweepValues_spec (s : Sector ℚ) (style : Style ℚ) (target : Option (Target ℚ)) (duration : Duration) :
    let e : Element ℚ := ⟨.sector s, style, target, some ⟨.sweepAngles, duration⟩⟩
    (sweepValues e duration).length = 13 ∧ (∀ text ∈ sweepValues e duration, ';' ∉ text.toList) ∧
      (sweepValues e duration).getLast? = some s.text := by
  intro e
  refine ⟨by simp [sweepValues, sweepFrames], ?_, ?_⟩
  · intro text htext
    obtain ⟨i, -, rfl⟩ := List.mem_map.1 htext
    exact Sector.semicolon_notMem _
  · have hwhole : (Scalar.ofNat sweepFrames / Scalar.ofNat sweepFrames : ℚ) = 1 := by
      norm_num [sweepFrames]
    have hfinished : e.sampledShape duration = .sector s :=
      Element.sampledShape_finished (t := ⟨.sweepAngles, duration⟩) rfl le_rfl
    rw [sweepValues, List.getLast?_map, List.getLast?_range, if_neg (by simp)]
    simp only [Option.map_some, Nat.add_sub_cancel]
    rw [hwhole, Duration.scale_one, hfinished]

/-- A growing rectangle is drawn as it is at the start, and grows to what the still picture shows. -/
theorem element_growWidth (origin : Point ℚ) (width height : ℚ) (style : Style ℚ) (target : Option (Target ℚ))
    (duration : Duration) :
    let e : Element ℚ := ⟨.rect origin width height, style, target, some ⟨.growWidth, duration⟩⟩
    ∃ start motion final, e.sampledShape ⟨0⟩ = .rect origin start height ∧
      (element true e).attribute? "width" = some (Coordinate.text start) ∧
      named "animate" (element true e).children = [motion] ∧
      motion.attribute? "attributeName" = some "width" ∧ motion.attribute? "to" = some final ∧
      (element false e).attribute? "width" = some final := by
  intro e
  let motion : Node :=
    animate (α := ℚ) "width" [{ name := "from", value := "0" }, coordinate "to" width] duration
  refine ⟨_, motion, Coordinate.text width, rfl, rfl, ?_, rfl, rfl, rfl⟩
  cases target <;> rfl

/-- A sweeping sector is drawn as it is at the start, and its last key frame is what the still picture
shows. -/
theorem element_sweepAngles (s : Sector ℚ) (style : Style ℚ) (target : Option (Target ℚ))
    (duration : Duration) :
    let e : Element ℚ := ⟨.sector s, style, target, some ⟨.sweepAngles, duration⟩⟩
    ∃ start motion final, e.sampledShape ⟨0⟩ = .sector start ∧
      (element true e).attribute? "d" = some start.text ∧
      named "animate" (element true e).children = [motion] ∧
      motion.attribute? "attributeName" = some "d" ∧ (keyFrames motion).length = 13 ∧
      (keyFrames motion).getLast? = some final ∧ (element false e).attribute? "d" = some final := by
  intro e
  obtain ⟨hlength, htexts, hlast⟩ := sweepValues_spec s style target duration
  let motion : Node :=
    animate (α := ℚ) "d" [{ name := "values", value := ";".intercalate (sweepValues e duration) }] duration
  have hne : sweepValues e duration ≠ [] := by
    intro hnil
    simp [e, hnil] at hlength
  have hframes : keyFrames motion = sweepValues e duration := keyFrames_intercalate rfl hne htexts
  refine ⟨_, motion, s.text, rfl, rfl, ?_, rfl, ?_, ?_, rfl⟩
  · cases target <;> rfl
  · rw [hframes, hlength]
  · rw [hframes, hlast]

/-- **Pictures with and without animations agree.** Without them a picture is the one of the elements in
their final state; with them only the tags of elements that move are others. In exact arithmetic such a tag
draws the state at time zero, and its animation ends at what the still picture draws. -/
theorem animated_agrees [Trig α] :
    (∀ scene : Scene α, render false scene = render true scene.still) ∧
    (∀ scene : Scene α, render false scene = (page (element false) scene).write ++ "\n" ∧
      render true scene =
        (page (fun e => if e.moves then element true e else element false e) scene).write ++ "\n") ∧
    (∀ (origin : Point ℚ) (width height : ℚ) (style : Style ℚ) (target : Option (Target ℚ))
        (duration : Duration),
      let e : Element ℚ := ⟨.rect origin width height, style, target, some ⟨.growWidth, duration⟩⟩
      ∃ start motion final, e.sampledShape ⟨0⟩ = .rect origin start height ∧
        (element true e).attribute? "width" = some (Coordinate.text start) ∧
        named "animate" (element true e).children = [motion] ∧
        motion.attribute? "attributeName" = some "width" ∧ motion.attribute? "to" = some final ∧
        (element false e).attribute? "width" = some final) ∧
    (∀ (s : Sector ℚ) (style : Style ℚ) (target : Option (Target ℚ)) (duration : Duration),
      let e : Element ℚ := ⟨.sector s, style, target, some ⟨.sweepAngles, duration⟩⟩
      ∃ start motion final, e.sampledShape ⟨0⟩ = .sector start ∧
        (element true e).attribute? "d" = some start.text ∧
        named "animate" (element true e).children = [motion] ∧
        motion.attribute? "attributeName" = some "d" ∧ (keyFrames motion).length = 13 ∧
        (keyFrames motion).getLast? = some final ∧ (element false e).attribute? "d" = some final) := by
  refine ⟨fun scene => ?_, fun scene => ⟨rfl, ?_⟩, element_growWidth, element_sweepAngles⟩
  · have hstill : document true scene.still = document false scene := by
      rw [document_eq_page, page_still, document_eq_page, funext (element_still true)]
    rw [render, render, hstill]
  · rw [render, document_animated]

end Svg

end QueueBoard
