import QueueBoard.Proofs.Chart.Pie
import QueueBoard.Scene.Tooltip
/-!
# What a donut says of its data

A donut tells every datum up to three times: by a sector of its ring, by a row of its legend, and by the
tooltip of the sector. A layer is taken apart into these, and they agree (`Donut.render_agrees`): what is at one
index is about the datum of that index, in one color and in one text.
-/

namespace QueueBoard

variable {α : Type}

/-- The text that an element shows. -/
def Element.text? (e : Element α) : Option String :=
  match e.shape with
  | .text label => some label.text
  | _ => none

namespace Donut

/-- What a donut's layer is put together from. -/
structure Parts (α : Type) where
  title : Element α
  frame : Element α
  sectors : List (Element α)
  /-- Each swatch with its text. -/
  legend : List (Element α × Element α)
  /-- The caption with the number below it. -/
  hole : Option (Element α × Element α)

/-- The elements in the order in which they are painted. -/
def Parts.elements (parts : Parts α) : List (Element α) :=
  [parts.title, parts.frame] ++ parts.sectors ++ (parts.legend.flatMap fun row => [row.1, row.2]) ++
    (parts.hole.toList.flatMap fun texts => [texts.1, texts.2])

variable [Scalar α]

/-- How a slice is drawn in a ring: full in its color, or as a dashed outline if it is near zero. -/
structure SliceDrawn (ring : Ring α) (allZero : Prop) (color : Rgb) (s : Slice α) (e : Element α) : Prop where
  shape : e.shape = .sector ⟨ring.center, ring.inner, ring.outer, s.start, s.finish⟩
  target : e.target = some (.datum s.datum)
  full : ¬ s.datum.magnitude ≤ threshold →
    e.style.fill = some color ∧ e.style.stroke = none ∧ e.style.dash = none
  empty : s.datum.magnitude ≤ threshold → e.style.fill = some .background ∧ e.style.dash = some (10, 10)
  colored : s.datum.magnitude ≤ threshold → allZero → e.style.stroke = some color
  neutral : s.datum.magnitude ≤ threshold → ¬ allZero → e.style.stroke = some .neutral

/-- How a legend lists a datum: a swatch in its color, and its text. -/
structure Listed (color : Rgb) (d : Datum α) (row : Element α × Element α) : Prop where
  swatch : ∃ corner, row.1.shape = .rect corner swatch swatch
  fill : row.1.style.fill = some color
  text : row.2.text? = some d.describe

/-- A text in the middle of a ring. -/
structure Centered (ring : Ring α) (color : Rgb) (text : String) (e : Element α) : Prop where
  text : e.text? = some text
  fill : e.style.fill = some color
  place : ∃ label, e.shape = .text label ∧ label.anchor = .middle ∧ ∃ dy, label.position = ring.center.offset 0 dy

/-- How the parts of a donut tell its data. -/
structure Agrees [Trig α] (data : List (Datum α)) (title : String) (panel : Panel α) (options : Options α)
    (palette : Palette) (parts : Parts α) : Prop where
  title : parts.title.text? = some title ∧ parts.title.style.role = some "chart-title"
  frame : parts.frame.shape = .rect ⟨panel.x1, panel.y1⟩ panel.width panel.height ∧
    parts.frame.style.role = some "chart-frame"
  sectors : parts.sectors.length = data.length
  sector : ∀ (i : Nat) (e : Element α), parts.sectors[i]? = some e →
    ∃ s, (pie data).slices[i]? = some s ∧ data[i]? = some s.datum ∧
      SliceDrawn (ring panel options.sideLabels) (∀ d ∈ data, d.magnitude ≤ threshold) (palette.color i) s e
  legend : parts.legend.length = if options.sideLabels then data.length else 0
  row : ∀ (i : Nat) (row : Element α × Element α), parts.legend[i]? = some row →
    ∃ d, data[i]? = some d ∧ Listed (palette.color i) d row
  /-- The text in the legend is what the tooltip tells wherever the pointer is on the sector. -/
  told : ∀ (i : Nat) (e : Element α) (row : Element α × Element α), parts.sectors[i]? = some e →
    parts.legend[i]? = some row → ∀ (c : TooltipController α) (scene : Scene α) (p : Point α),
      scene.targetAt p = e.target → row.2.text? = some (c.track scene p).tooltip.text
  hole : parts.hole.isSome ↔ ∃ caption, options.centerLabel = some caption ∧ caption ≠ ""
  centered : ∀ texts : Element α × Element α, parts.hole = some texts →
    (∃ caption, options.centerLabel = some caption ∧
      Centered (ring panel options.sideLabels) palette.primary caption texts.1) ∧
    Centered (ring panel options.sideLabels) palette.primary
      (Scalar.text (options.centerValue.getD (pie data).total)) texts.2
  /-- Where all data are near zero no slice is full. -/
  never : ¬ ∃ s ∈ (pie data).slices, (pie data).allZero = true ∧ s.isNearZero = false

/-! ## Sectors -/

theorem drawn_sliceElement (ring : Ring α) (palette : Palette) {allZero : Bool} {s : Slice α}
    (hnever : allZero = true → s.isNearZero = true) :
    SliceDrawn ring (allZero = true) (palette.color s.index) s (sliceElement ring allZero palette s) := by
  obtain ⟨hshape, htarget⟩ := sliceElement_spec ring allZero palette s
  have hnear : s.datum.magnitude ≤ threshold ↔ s.isNearZero = true := decide_eq_true_iff.symm
  refine ⟨hshape, htarget, fun hfull => ?_, fun hempty => ?_, fun hempty hall => ?_, fun hempty hall => ?_⟩
  · -- that not all are near zero rules out the outline of full slices
    have hfull' : ¬ s.isNearZero = true := fun h => hfull (hnear.2 h)
    have hsome : ¬ allZero = true := fun h => hfull' (hnever h)
    simp only [sliceElement, hfull', hsome]
    exact ⟨rfl, rfl, rfl⟩
  · simp only [sliceElement, hnear.1 hempty]
    exact ⟨rfl, rfl⟩
  · simp only [sliceElement, hnear.1 hempty, hall]
    rfl
  · simp only [sliceElement, hnear.1 hempty, hall]
    rfl

theorem exists_slice [Trig α] {data : List (Datum α)} {ring : Ring α} {palette : Palette} {i : Nat} {e : Element α}
    (h : ((pie data).slices.map (sliceElement ring (pie data).allZero palette))[i]? = some e) :
    ∃ s, (pie data).slices[i]? = some s ∧ data[i]? = some s.datum ∧
      SliceDrawn ring (∀ d ∈ data, d.magnitude ≤ threshold) (palette.color i) s e := by
  rw [List.getElem?_map, Option.map_eq_some_iff] at h
  obtain ⟨s, hs, rfl⟩ := h
  -- a slice takes its color from the index it carries, a row of the legend from its place: they are one
  have hindex : s.index = i := (index_of_getElem?_slicesFrom hs).trans (Nat.zero_add i)
  have hdatum : data[i]? = some s.datum := by
    rw [← map_datum_slices data, List.getElem?_map, hs]
    rfl
  have hall : (pie data).allZero = true ↔ ∀ d ∈ data, d.magnitude ≤ threshold := by
    simp [pie]
  have hdrawn := drawn_sliceElement ring palette fun hzero =>
    (allZero_iff data).1 hzero s (List.mem_of_getElem? hs)
  rw [hindex, propext hall] at hdrawn
  exact ⟨s, hs, hdatum, hdrawn⟩

/-! ## The legend -/

theorem exists_rows (data : List (Datum α)) (panel : Panel α) (ring : Ring α) (palette : Palette) :
    ∃ rows : List (Element α × Element α),
      legend data panel ring palette = (rows.flatMap fun row => [row.1, row.2]) ∧ rows.length = data.length ∧
        ∀ (i : Nat) (row : Element α × Element α), rows[i]? = some row →
          ∃ d, data[i]? = some d ∧ Listed (palette.color i) d row := by
  have hrow : ∀ (i : Nat) (d : Datum α), ∃ row : Element α × Element α,
      legendRow panel (panel.x1 + panel.margin + ring.outer * 2 + 30) i d (palette.color i) = [row.1, row.2] ∧
        Listed (palette.color i) d row := fun i d => ⟨(_, _), rfl, ⟨_, rfl⟩, rfl, rfl⟩
  choose row hlist hlisted using hrow
  refine ⟨data.mapIdx row, ?_, List.length_mapIdx, fun i r hr => ?_⟩
  · simp only [legend, hlist]
    rw [List.flatMap_def, List.mapIdx_eq_zipIdx_map, List.mapIdx_eq_zipIdx_map, List.map_map]
    rfl
  · rw [List.getElem?_mapIdx, Option.map_eq_some_iff] at hr
    obtain ⟨d, hd, rfl⟩ := hr
    exact ⟨d, hd, hlisted i d⟩

/-- The tooltip over a datum tells this datum, whatever it told before. -/
theorem text_track [Trig α] {scene : Scene α} {p : Point α} {d : Datum α}
    (h : scene.targetAt p = some (.datum d)) (c : TooltipController α) :
    (c.track scene p).tooltip.text = d.describe := by
  simp only [TooltipController.track, h]
  rfl

/-! ## The hole -/

/-- The hole is empty, or holds the caption and the number. -/
theorem exists_hole (ring : Ring α) (options : Options α) (total : α) (color : Rgb) :
    ∃ hole : Option (Element α × Element α),
      center ring options total color = hole.toList.flatMap (fun texts => [texts.1, texts.2]) ∧
        (hole.isSome ↔ ∃ caption, options.centerLabel = some caption ∧ caption ≠ "") ∧
        ∀ texts, hole = some texts →
          (∃ caption, options.centerLabel = some caption ∧ Centered ring color caption texts.1) ∧
            Centered ring color (Scalar.text (options.centerValue.getD total)) texts.2 := by
  unfold center
  split
  case h_1 hlabel => exact ⟨none, rfl, by simp [hlabel], by simp⟩
  case h_2 hlabel => exact ⟨none, rfl, by simp [hlabel], by simp⟩
  case h_3 caption hempty hlabel =>
    refine ⟨some (_, _), rfl, by simpa [hlabel] using hempty, fun texts htexts => ?_⟩
    rw [← Option.some.inj htexts]
    exact ⟨⟨caption, hlabel, rfl, rfl, _, rfl, rfl, _, rfl⟩, rfl, rfl, _, rfl, rfl, _, rfl⟩

/-! ## The layer -/

theorem exists_panel (title : String) (panel : Panel α) :
    ∃ caption frame, (panelLayer title panel).elements = [caption, frame] ∧
      (caption.text? = some title ∧ caption.style.role = some "chart-title") ∧
        frame.shape = .rect ⟨panel.x1, panel.y1⟩ panel.width panel.height ∧
          frame.style.role = some "chart-frame" :=
  ⟨_, _, rfl, ⟨rfl, rfl⟩, rfl, rfl⟩

/-- **Sectors, legend and tooltips of a donut tell the same data.** -/
theorem render_agrees [Trig α] (data : List (Datum α)) (title : String) (panel : Panel α) (options : Options α)
    (palette : Palette) :
    ∃ parts, (render data title panel options palette).elements = parts.elements ∧
      Agrees data title panel options palette parts := by
  obtain ⟨caption, frame, hpanel, htitle, hframe⟩ := exists_panel title panel
  obtain ⟨rows, hlegend, hlength, hrows⟩ :=
    exists_rows data panel (ring panel options.sideLabels) palette
  obtain ⟨hole, hcenter, hsome, htexts⟩ :=
    exists_hole (ring panel options.sideLabels) options (pie data).total palette.primary
  -- without side labels there is no row
  have hside : ∀ (i : Nat) (row : Element α × Element α), (if options.sideLabels then rows else [])[i]? = some row →
      ∃ d, data[i]? = some d ∧ Listed (palette.color i) d row := by
    intro i row hrow
    split at hrow
    · exact hrows i row hrow
    · cases hrow
  let sectors := (pie data).slices.map (sliceElement (ring panel options.sideLabels) (pie data).allZero palette)
  refine ⟨{ title := caption, frame, sectors, legend := if options.sideLabels then rows else [], hole }, ?_, ?_⟩
  · simp only [render, Parts.elements, hpanel, hcenter, hlegend]
    split <;> rfl
  · constructor
    case title => exact htitle
    case frame => exact hframe
    case sectors => rw [List.length_map, ← List.length_map (f := Slice.datum), map_datum_slices]
    case sector => exact fun i e => exists_slice
    case legend => split <;> simp [hlength]
    case row => exact hside
    case told =>
      intro i e row he hrow c scene p htarget
      obtain ⟨s, -, hs, hdrawn⟩ := exists_slice he
      obtain ⟨d, hd, hlisted⟩ := hside i row hrow
      cases hs.symm.trans hd
      rw [hlisted.text, text_track (htarget.trans hdrawn.target)]
    case hole => exact hsome
    case centered => exact htexts
    case never =>
      rintro ⟨s, hs, hall, hfull⟩
      exact absurd ((allZero_iff data).1 hall s hs) (by simp [hfull])

end Donut

end QueueBoard
