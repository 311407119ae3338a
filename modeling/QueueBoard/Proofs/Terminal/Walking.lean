import QueueBoard.Proofs.Dashboard.Neighbor
import QueueBoard.Proofs.Terminal.Selection
/-!
# Keys walk the rows

A key that walks selects the neighbor some rows away and draws the picture once, over the same rows
(`walked_step`). So what a row means stays the same from key to key, and some keys go where the rows they go
add up to (`Walked.presses`). The keys for the ends go further than any number of rows that a machine can hold,
and from an end the others count the rows off one by one (`run_walk`).
-/

namespace QueueBoard.Terminal.QueuesScreen

open QueueDashboard (Fresh)

/-! ## Keys that walk -/

/-- How many rows further a key goes, if it walks. -/
def stride? : KeyCode → Option Int
  | .char 'j' | .down => some 1
  | .char 'k' | .up => some (-1)
  | .char 'g' | .home => some (-farAway)
  | .char 'G' | .end => some farAway
  | _ => none

variable {α : Type} [Scalar α] [Trig α] {s t : QueuesScreen α} {key : Key} {offset : Int}

theorem command?_of_stride? {code : KeyCode} (h : stride? code = some offset) :
    command? (α := α) code = some (selectNeighbor · offset) := by
  unfold stride? at h
  split at h <;> cases h <;> rfl

omit [Trig α] in
/-- A key that walks does not scroll, whatever is held down with it. -/
theorem scrollKey_of_stride? (v : Viewport α) (h : stride? key.code = some offset) (height : α) (area : Area) :
    v.scrollKey key height area = none := by
  obtain ⟨code, modifiers⟩ := key
  dsimp only at h
  unfold stride? at h
  split at h <;> cases h <;> rfl

theorem step_of_stride? (now : Duration) (h : stride? key.code = some offset) :
    s.step (now, .key key) = (s.selectNeighbor offset).sync now := by
  simp only [step, onKey, scrollKey_of_stride? s.viewport h, command?_of_stride? h]

/-- The screen after some keys. -/
def presses (s : QueuesScreen α) (keys : List (Duration × Key)) : QueuesScreen α :=
  keys.foldl (fun s k => s.step (k.1, .key k.2)) s

/-! ## A walk -/

/-- One screen comes from another by so many pictures drawn of the same tree, the last of them with the queue of
a row selected. -/
structure Walked (s t : QueuesScreen α) (row pictures : Nat) : Prop where
  fresh : Fresh t.dashboard
  selected : t.dashboard.SelectedAt row
  tree : t.dashboard.tree = s.dashboard.tree
  folded : t.dashboard.folded = s.dashboard.folded
  layout : t.dashboard.layout = s.dashboard.layout
  generation : t.dashboard.generation = s.dashboard.generation + pictures

theorem Walked.trans {u : QueuesScreen α} {row row' pictures more : Nat} (h : Walked s t row pictures)
    (h' : Walked t u row' more) : Walked s u row' (pictures + more) where
  fresh := h'.fresh
  selected := h'.selected
  tree := h'.tree.trans h.tree
  folded := h'.folded.trans h.folded
  layout := h'.layout.trans h.layout
  generation := by rw [h'.generation, h.generation, Nat.add_assoc]

/-- A key that walks draws one picture, with the neighbor selected. -/
theorem walked_step (hfresh : Fresh s.dashboard) (hrows : 0 < s.dashboard.layout.rows.length) (now : Duration)
    (hkey : stride? key.code = some offset) :
    Walked s (s.step (now, .key key))
      (rowAfter s.dashboard.layout.rows.length s.dashboard.currentRow offset) 1 := by
  obtain ⟨row, hrow, hneighbor⟩ := QueueDashboard.exists_neighbor hrows offset
  have hstep : (s.step (now, .key key)).dashboard = s.dashboard.select row.name := by
    rw [step_of_stride? now hkey, selectNeighbor, hneighbor]
    rfl
  exact {
    fresh := by rw [hstep]; exact QueueDashboard.redraw_fresh _
    selected := by rw [hstep]; exact hfresh.selectedAt_select hrow
    tree := by rw [hstep]; rfl
    folded := by rw [hstep]; rfl
    layout := by rw [hstep, hfresh.layout_select]
    generation := by rw [hstep]; rfl }

/-- Keys that walk go on from row to row. The induction carries the row that is selected, which the next key finds
again because no two rows share a name. -/
theorem Walked.presses {row pictures : Nat} {keys : List (Duration × Key)} {offsets : List Int}
    (h : Walked s t row pictures) (hnames : (s.dashboard.layout.rows.map (·.name)).Nodup)
    (hkeys : keys.map (fun k => stride? k.2.code) = offsets.map some) :
    Walked s (t.presses keys) (offsets.foldl (rowAfter s.dashboard.layout.rows.length) row)
      (pictures + keys.length) := by
  induction keys generalizing t row pictures offsets with
  | nil =>
    cases offsets with
    | nil => exact h
    | cons => cases hkeys
  | cons key rest ih =>
    cases offsets with
    | nil => cases hkeys
    | cons offset offsets =>
      obtain ⟨hkey, hrest⟩ := List.cons_eq_cons.1 hkeys
      have hcurrent : t.dashboard.currentRow = row := h.selected.currentRow_eq (by rw [h.layout]; exact hnames)
      have hstep : Walked t (t.step (key.1, .key key.2))
          (rowAfter s.dashboard.layout.rows.length row offset) 1 := by
        have hwalked := walked_step h.fresh (Nat.zero_lt_of_lt h.selected.lt) key.1 hkey
        rwa [hcurrent, h.layout] at hwalked
      have hwalked := ih (h.trans hstep) hrest
      rwa [Nat.add_assoc, Nat.add_comm 1] at hwalked

/-- One key after another that all go the same way. -/
theorem Walked.presses_same {row pictures : Nat} {keys : List (Duration × Key)} (h : Walked s t row pictures)
    (hnames : (s.dashboard.layout.rows.map (·.name)).Nodup)
    (hkeys : ∀ k ∈ keys, stride? k.2.code = some offset) :
    Walked s (t.presses keys)
      (rowAfter s.dashboard.layout.rows.length row (keys.length * offset)) (pictures + keys.length) := by
  have hoffsets : keys.map (fun k => stride? k.2.code) = (List.replicate keys.length offset).map some := by
    rw [List.map_replicate]
    exact List.map_eq_replicate_iff.2 hkeys
  have hsign : (∀ x ∈ List.replicate keys.length offset, 0 ≤ x) ∨
      ∀ x ∈ List.replicate keys.length offset, x ≤ 0 := by
    refine (Int.le_total 0 offset).imp (fun h x hx => ?_) fun h x hx => ?_ <;>
      rwa [List.eq_of_mem_replicate hx]
  have hrow : row < s.dashboard.layout.rows.length := h.layout ▸ h.selected.lt
  have hwalked := h.presses hnames hoffsets
  rwa [foldl_rowAfter hrow hsign, List.sum_replicate, nsmul_eq_mul] at hwalked

/-! ## Walks on screens -/

theorem stride?_first : ∀ code ∈ [KeyCode.char 'g', .home], stride? code = some (-farAway) := by decide

theorem stride?_last : ∀ code ∈ [KeyCode.char 'G', .end], stride? code = some farAway := by decide

theorem stride?_down : ∀ code ∈ [KeyCode.char 'j', .down], stride? code = some 1 := by decide

theorem stride?_up : ∀ code ∈ [KeyCode.char 'k', .up], stride? code = some (-1) := by decide

theorem run_names_nodup (start : Duration) (window : Nat) (inputs : List (Duration × Input α)) :
    ((run start window inputs).dashboard.layout.rows.map (·.name)).Nodup := by
  obtain ⟨records, htree⟩ := run_tree start window inputs
  exact (run_fresh_dashboard start window inputs).names_nodup (htree ▸ QueueTree.build_linked records)
    (htree ▸ QueueTree.build_distinct records)

/-- **Keys walk all visible rows.** The neighbor of a visible selection is the row at that distance, or the end
that lies on the way, and there is none just if there are no rows. A key that walks draws one picture over the
same tree, folds and rows. If a machine can hold the rows, its words find the same neighbors, up to both ends of
their range; the key for the first row, and then some keys down, go as many rows from it as there are; and the
key for the last, and then some keys up, as many rows from that one. -/
theorem run_walk (start : Duration) (window : Nat) (inputs : List (Duration × Input α)) :
    let s := run start window inputs
    let d := s.dashboard
    let rows := d.layout.rows
    (∀ i : Nat, d.SelectedAt i → ∀ offset : Int, ∃ row : Nat,
      (row : Int) = min (max (i + offset) 0) (rows.length - 1) ∧
        ∃ queue, rows[row]? = some queue ∧ d.neighbor offset = some queue.name) ∧
      (∀ offset : Int, d.neighbor offset = none ↔ rows.length = 0) ∧
      (0 < rows.length → ∀ now key offset, stride? key.code = some offset →
        Walked s (s.step (now, .key key)) (rowAfter rows.length d.currentRow offset) 1) ∧
      ((rows.length : Int) ≤ farAway →
        (∀ offset : Int64, d.neighborInWords offset = d.neighbor offset.toInt) ∧
        d.neighborInWords .minValue = d.neighbor (-farAway) ∧
        d.neighborInWords .maxValue = d.neighbor farAway ∧
        (0 < rows.length → ∀ (key : Duration × Key) (more : List (Duration × Key)),
          (key.2.code ∈ [.char 'g', .home] → (∀ k ∈ more, k.2.code ∈ [.char 'j', .down]) →
            Walked s (s.presses (key :: more)) (min more.length (rows.length - 1)) (1 + more.length)) ∧
          (key.2.code ∈ [.char 'G', .end] → (∀ k ∈ more, k.2.code ∈ [.char 'k', .up]) →
            Walked s (s.presses (key :: more)) (rows.length - 1 - more.length) (1 + more.length)))) := by
  intro s d rows
  have hfresh : Fresh d := run_fresh_dashboard start window inputs
  have hnames : (rows.map (·.name)).Nodup := run_names_nodup start window inputs
  refine ⟨fun i hi offset => ?_, d.neighbor_eq_none_iff,
    fun hrows now key offset => walked_step hfresh hrows now, fun hfew => ?_⟩
  · obtain ⟨queue, hqueue, hneighbor⟩ := QueueDashboard.exists_neighbor (Nat.zero_lt_of_lt hi.lt) offset
    rw [hi.currentRow_eq hnames] at hqueue
    exact ⟨_, cast_rowAfter (Nat.zero_lt_of_lt hi.lt), queue, hqueue, hneighbor⟩
  have hrange : farAway = 2 ^ 63 := rfl
  have hwords : ∀ offset : Int64, d.neighborInWords offset = d.neighbor offset.toInt :=
    QueueDashboard.neighborInWords_eq (show rows.length ≤ 2 ^ 64 by omega)
  -- the largest word is one less than what the key goes, and still far enough
  have hlast : ∀ offset : Int, 2 ^ 63 - 1 ≤ offset →
      rowAfter rows.length d.currentRow offset = rows.length - 1 := fun offset h => rowAfter_last (by omega)
  refine ⟨hwords, hwords .minValue, ?_, fun hrows key more => ⟨fun hkey hmore => ?_, fun hkey hmore => ?_⟩⟩
  · rw [hwords, QueueDashboard.neighbor_eq, QueueDashboard.neighbor_eq, hlast _ (by decide), hlast _ (by decide)]
  · have hcurrent : d.currentRow < rows.length := QueueDashboard.currentRow_lt hrows
    have htop : rowAfter rows.length d.currentRow (-farAway) = 0 := rowAfter_first (by omega)
    have hfirst := walked_step hfresh hrows key.1 (stride?_first _ hkey)
    rw [htop] at hfirst
    have hwalked := hfirst.presses_same hnames fun k hk => stride?_down _ (hmore k hk)
    have hrow : rowAfter rows.length 0 (more.length * 1) = min more.length (rows.length - 1) := by
      unfold rowAfter
      omega
    rwa [hrow] at hwalked
  · have hend := walked_step hfresh hrows key.1 (stride?_last _ hkey)
    rw [hlast _ (by decide)] at hend
    have hwalked := hend.presses_same hnames fun k hk => stride?_up _ (hmore k hk)
    have hrow : rowAfter rows.length (rows.length - 1) (more.length * -1) = rows.length - 1 - more.length := by
      unfold rowAfter
      omega
    rwa [hrow] at hwalked

/-- Down from the first of three rows, further than there are, and up again from the last. -/
theorem run_walk_three :
    letI : Trig ℚ := .rational
    let records : List (QueueRecord ℚ) :=
      [{ QueueRecord.named "root" with children := ["a", "b"] }, .named "a", .named "b"]
    let inputs : List (Duration × Input ℚ) := [(⟨0⟩, .action (.queuesLoaded records))]
    let s := run ⟨0⟩ 400 inputs
    let down : List (Duration × Key) := List.replicate 5 (⟨1⟩, ⟨.char 'j', {}⟩)
    let up : List (Duration × Key) := [(⟨2⟩, ⟨.char 'k', {}⟩), (⟨3⟩, ⟨.up, {}⟩)]
    s.dashboard.layout.rows.map (·.name) = ["root", "a", "b"] ∧
      s.dashboard.SelectedAt 0 ∧ s.dashboard.neighbor (-1) = some "root" ∧
      s.dashboard.neighborInWords .maxValue = some "b" ∧
      Walked s (s.step (⟨1⟩, .key ⟨.down, {}⟩)) 1 1 ∧
      Walked s (s.presses ((⟨1⟩, ⟨.char 'g', {}⟩) :: down)) 2 6 ∧
      Walked s (s.presses ((⟨1⟩, ⟨.end, {}⟩) :: up)) 0 3 := by
  let trig : Trig ℚ := .rational
  intro records inputs s down up
  have hnames : s.dashboard.layout.rows.map (·.name) = ["root", "a", "b"] := by decide +kernel
  have hlength : s.dashboard.layout.rows.length = 3 := by
    rw [← List.length_map, hnames]
    rfl
  have hsome : 0 < s.dashboard.layout.rows.length := by omega
  have hfew : (s.dashboard.layout.rows.length : Int) ≤ farAway := by
    rw [hlength]
    decide
  have hroot : s.dashboard.layout.rows[0]?.map (·.name) = some "root" := by decide +kernel
  have hselected : s.dashboard.SelectedAt 0 := by
    obtain ⟨row, hrow, hname⟩ := Option.map_eq_some_iff.1 hroot
    exact ⟨row, hrow, hname ▸ by decide +kernel⟩
  have hcurrent : s.dashboard.currentRow = 0 := by decide +kernel
  have hfar : s.dashboard.neighbor Int64.maxValue.toInt = some "b" := by decide +kernel
  obtain ⟨hneighbors, -, hstep, hmachine⟩ := run_walk ⟨0⟩ 400 inputs
  obtain ⟨hwords, -, -, hpresses⟩ := hmachine hfew
  have hneighbor : s.dashboard.neighbor (-1) = some "root" := by
    obtain ⟨row, hrow, queue, hqueue, hneighbor⟩ := hneighbors 0 hselected (-1)
    change (row : Int) = min (max (((0 : Nat) : Int) + -1) 0) ((s.dashboard.layout.rows.length : Int) - 1) at hrow
    obtain rfl : row = 0 := by omega
    have hname : s.dashboard.layout.rows[0]?.map (·.name) = some queue.name :=
      congrArg (Option.map PlacedNode.name) hqueue
    rw [← hroot, hname]
    exact hneighbor
  have hdown : Walked s (s.step (⟨1⟩, .key ⟨.down, {}⟩))
      (rowAfter s.dashboard.layout.rows.length s.dashboard.currentRow 1) 1 :=
    hstep hsome ⟨1⟩ ⟨.down, {}⟩ 1 rfl
  have hfirst : Walked s (s.presses ((⟨1⟩, ⟨.char 'g', {}⟩) :: down))
      (min down.length (s.dashboard.layout.rows.length - 1)) (1 + down.length) :=
    (hpresses hsome (⟨1⟩, ⟨.char 'g', {}⟩) down).1 (by simp) (by simp [down])
  have hlast : Walked s (s.presses ((⟨1⟩, ⟨.end, {}⟩) :: up))
      (s.dashboard.layout.rows.length - 1 - up.length) (1 + up.length) :=
    (hpresses hsome (⟨1⟩, ⟨.end, {}⟩) up).2 (by simp) (by simp [up])
  rw [hlength] at hdown hfirst hlast
  rw [hcurrent] at hdown
  exact ⟨hnames, hselected, hneighbor, (hwords .maxValue).trans hfar, hdown, hfirst, hlast⟩

end QueueBoard.Terminal.QueuesScreen
