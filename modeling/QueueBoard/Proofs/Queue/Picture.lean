import QueueBoard.Proofs.Queue.Renaming
/-!
# The shape of the visible tree

Rows and curves of a placed tree belong together (`compute_wellShaped`): every row but the first hangs below
the nearest row above it that is one level up, by one curve, and there are no other curves. The walk draws a
row before what is below it and its curve after that. So while it is below a row, new rows hang there
(`Open`), and what a run adds are as many curves as rows (`Descent.adds`). This needs no tree: on a snapshot
with loops and shared children it is the rows that make one.
-/

namespace QueueBoard.TreeLayout

open QueueTree

variable {α : Type} {tree : QueueTree α} {F : FoldedSet}

/-- `row` is drawn below `parent`: nothing between them is as far up as `parent`, which is unfolded and lists
the queue of `row`. -/
structure Hangs (tree : QueueTree α) (l : TreeLayout α) (parent row : PlacedNode α) : Prop where
  nearest : ∃ above between below, l.rows = above ++ parent :: between ++ row :: below ∧
    ∀ q ∈ between, parent.depth < q.depth
  depth : row.depth = parent.depth + 1
  unfolded : parent.folded = false
  listed : tree.Links parent.id row.id

/-- A row that is added now hangs below `parent`, if it is one level down. -/
def Open (l : TreeLayout α) (parent : PlacedNode α) : Prop :=
  ∃ above below, l.rows = above ++ parent :: below ∧ ∀ q ∈ below, parent.depth < q.depth

/-- The children of `parent` in front of `rest` have rows, and the curves from `parent` so far go to them. -/
def Reached (tree : QueueTree α) (F : FoldedSet) (l : TreeLayout α) (parent : PlacedNode α) (rest : List Nat) :
    Prop :=
  ∃ node front, tree.get? parent.id = some node ∧ node.shown F = front ++ rest ∧ (∀ c ∈ front, c ∈ l.ids) ∧
    ∀ c ∈ l.connectors, c.parent = parent.id → c.child ∈ front

/-- If two curves start at one queue, the second goes to a lower row and to a child listed later. -/
def ListedAfter (tree : QueueTree α) (l : TreeLayout α) (c c' : Connector α) : Prop :=
  c.parent = c'.parent → l.ids.idxOf c.child < l.ids.idxOf c'.child ∧
    ∀ node, tree.get? c.parent = some node → node.children.idxOf c.child < node.children.idxOf c'.child

/-- What going through the children of `parent` adds to a layout. -/
structure Adds (parent : PlacedNode α) (l l' : TreeLayout α) (rows : List (PlacedNode α))
    (curves : List (Connector α)) : Prop where
  rows_eq : l'.rows = l.rows ++ rows
  connectors_eq : l'.connectors = l.connectors ++ curves
  ends : (curves.map (·.child)).Perm (rows.map (·.id))
  starts : ∀ c ∈ curves, c.parent = parent.id ∨ c.parent ∈ rows.map (·.id)
  deeper : ∀ row ∈ rows, parent.depth < row.depth

variable {l l' : TreeLayout α} {parent row : PlacedNode α}

theorem Hangs.mono (h : Hangs tree l parent row) (hrows : l.rows <+: l'.rows) : Hangs tree l' parent row := by
  obtain ⟨above, between, below, hsplit, hdeeper⟩ := h.nearest
  obtain ⟨more, hmore⟩ := hrows
  exact ⟨⟨above, between, below ++ more, by simp [← hmore, hsplit], hdeeper⟩, h.depth, h.unfolded, h.listed⟩

theorem Hangs.mem (h : Hangs tree l parent row) : parent ∈ l.rows ∧ row ∈ l.rows := by
  obtain ⟨above, between, below, hsplit, -⟩ := h.nearest
  simp [hsplit]

theorem open_addRow (l : TreeLayout α) (row : PlacedNode α) : Open (l.addRow row) row :=
  ⟨l.rows, [], rfl, by simp⟩

theorem Open.mono (h : Open l parent) (rows : List (PlacedNode α)) (hrows : l'.rows = l.rows ++ rows)
    (hdeeper : ∀ row ∈ rows, parent.depth < row.depth) : Open l' parent := by
  obtain ⟨above, below, hsplit, hbelow⟩ := h
  exact ⟨above, below ++ rows, by simp [hrows, hsplit], List.forall_mem_append.2 ⟨hbelow, hdeeper⟩⟩

theorem Open.hangs (h : Open l parent) (hdepth : row.depth = parent.depth + 1)
    (hunfolded : parent.folded = false) (hlisted : tree.Links parent.id row.id) :
    Hangs tree (l.addRow row) parent row := by
  obtain ⟨above, below, hsplit, hdeeper⟩ := h
  exact ⟨⟨above, below, [], by simp [hsplit], hdeeper⟩, hdepth, hunfolded, hlisted⟩

theorem shown_eq_children {node : QueueNode α} {c : Nat} (h : c ∈ node.shown F) :
    node.shown F = node.children := by
  unfold QueueNode.shown at h ⊢
  split
  · rename_i hfolded
    simp [hfolded] at h
  · rfl

/-- What stands in a list before something that is new there comes before it. -/
theorem idxOf_lt_idxOf {xs ys : List Nat} {a b : Nat} (ha : a ∈ xs) (hb : b ∉ xs) :
    (xs ++ b :: ys).idxOf a < (xs ++ b :: ys).idxOf b := by
  rw [List.idxOf_append_of_mem ha, List.idxOf_append_of_notMem hb, List.idxOf_cons_self]
  exact List.idxOf_lt_length_of_mem ha

/-- In a list without repetition an index tells where its element is. -/
theorem idxOf_of_getElem? {xs : List Nat} (hnd : xs.Nodup) {i x : Nat} (h : xs[i]? = some x) : xs.idxOf x = i := by
  obtain ⟨hi, rfl⟩ := List.getElem?_eq_some_iff.1 h
  exact hnd.idxOf_getElem i hi

theorem reached_start {node : QueueNode α} (hn : tree.get? row.id = some node)
    (hnone : ∀ c ∈ l.connectors, c.parent ≠ row.id) : Reached tree F l row (node.shown F) :=
  ⟨node, [], hn, rfl, by simp, fun c hc h => absurd h (hnone c hc)⟩

theorem Reached.step {child : Nat} {rest : List Nat} (h : Reached tree F l parent (child :: rest))
    (hids : l.ids ⊆ l'.ids) (hchild : child ∈ l'.ids)
    (hcurves : ∀ c ∈ l'.connectors, c.parent = parent.id → c ∈ l.connectors ∨ c.child = child) :
    Reached tree F l' parent rest := by
  obtain ⟨node, front, hn, hshown, hfront, hends⟩ := h
  refine ⟨node, front ++ [child], hn, by simp [hshown], fun c hc => ?_, fun c hc hparent => ?_⟩
  · rcases List.mem_append.1 hc with hc | hc
    · exact hids (hfront c hc)
    · exact List.mem_singleton.1 hc ▸ hchild
  · rcases hcurves c hc hparent with h | h
    · exact List.mem_append_left _ (hends c h hparent)
    · exact List.mem_append_right _ (by simp [h])

/-- Rows below leave the curves in their order. -/
theorem Joined.listedAfter {more : List Nat} (hj : Joined l) (hf : l.connectors.Pairwise (ListedAfter tree l))
    (hids : l'.ids = l.ids ++ more) : l.connectors.Pairwise (ListedAfter tree l') := by
  refine hf.imp_of_mem fun {c c'} hc hc' h hparent => ?_
  rw [hids, List.idxOf_append_of_mem (hj c hc).2, List.idxOf_append_of_mem (hj c' hc').2]
  exact h hparent

/-- The curve to the next child is the last one from `parent`. -/
theorem Reached.listedAfter {child : Nat} {rest more : List Nat} {c c' : Connector α}
    (h : Reached tree F l parent (child :: rest)) (hchild : child ∉ l.ids)
    (hids : l'.ids = l.ids ++ child :: more) (hc : c.parent = c'.parent → c ∈ l.connectors)
    (hparent : c'.parent = parent.id) (hc' : c'.child = child) : ListedAfter tree l' c c' := by
  intro hsame
  obtain ⟨node, front, hn, hshown, hfront, hends⟩ := h
  have hmem : c.child ∈ front := hends c (hc hsame) (hsame.trans hparent)
  have hchildren : node.children = front ++ child :: rest := by
    rw [← hshown, shown_eq_children (hshown ▸ by simp : child ∈ node.shown F)]
  refine ⟨?_, fun node' hn' => ?_⟩
  · rw [hids, hc']
    exact idxOf_lt_idxOf (hfront _ hmem) hchild
  · rw [hsame, hparent] at hn'
    cases hn.symm.trans hn'
    rw [hchildren, hc']
    exact idxOf_lt_idxOf hmem fun hin => hchild (hfront _ hin)

/-- Of two curves from one queue, that one goes to the higher row whose child is listed first. -/
theorem lt_iff_of_listedAfter (hf : l.connectors.Pairwise (ListedAfter tree l)) {c c' : Connector α}
    {node : QueueNode α} (hc : c ∈ l.connectors) (hc' : c' ∈ l.connectors) (hparent : c.parent = c'.parent)
    (hn : tree.get? c.parent = some node) : l.ids.idxOf c.child < l.ids.idxOf c'.child ↔
      node.children.idxOf c.child < node.children.idxOf c'.child := by
  have hpair := List.pairwise_iff_getElem.1 hf
  obtain ⟨i, hi, rfl⟩ := List.getElem_of_mem hc
  obtain ⟨j, hj, rfl⟩ := List.getElem_of_mem hc'
  rcases Nat.lt_trichotomy i j with hlt | rfl | hgt
  · obtain ⟨hrows, hlisted⟩ := hpair i j hi hj hlt hparent
    exact iff_of_true hrows (hlisted node hn)
  · simp
  · obtain ⟨hrows, hlisted⟩ := hpair j i hj hi hgt hparent.symm
    exact iff_of_false (Nat.lt_asymm hrows) (Nat.lt_asymm (hlisted node (hparent ▸ hn)))

/-- The depth of the deepest row is the greatest one. -/
theorem maxDepth_spec (l : TreeLayout α) : (∀ row ∈ l.rows, row.depth ≤ l.maxDepth) ∧
    (l.rows ≠ [] → ∃ row ∈ l.rows, row.depth = l.maxDepth) := by
  have hmax : l.maxDepth = (l.rows.map (·.depth)).max?.getD 0 := by
    rw [maxDepth, List.foldl_max, Nat.zero_max]
  cases h : (l.rows.map (·.depth)).max? with
  | none =>
    have hnil : l.rows = [] := by simpa using h
    simp [hnil]
  | some deepest =>
    obtain ⟨hmem, hle⟩ := List.max?_eq_some_iff.1 h
    rw [h, Option.getD_some] at hmax
    obtain ⟨row, hrow, hdepth⟩ := List.mem_map.1 hmem
    exact ⟨fun q hq => hmax ▸ hle _ (List.mem_map_of_mem hq), fun _ => ⟨row, hrow, hmax ▸ hdepth⟩⟩

variable [Scalar α] {children : List Nat}

/-- The curve from a row to one that hangs below it. -/
def curve (parent row : PlacedNode α) : Connector α :=
  ⟨parent.id, row.id, connectorPath parent.position row.position⟩

@[simp] theorem ids_addConnector (l : TreeLayout α) (parent child : PlacedNode α) :
    (l.addConnector parent child).ids = l.ids := rfl

/-! ## Runs -/

/-- **What a run adds.** -/
theorem Descent.adds (h : Descent tree F parent children l l') : ∃ rows curves, Adds parent l l' rows curves := by
  induction h with
  | done parent l => exact ⟨[], [], by simp, by simp, .nil, by simp, by simp⟩
  | again _ _ ih =>
    obtain ⟨rows, curves, hadds⟩ := ih
    exact ⟨rows, curves, hadds.rows_eq, hadds.connectors_eq, hadds.ends, hadds.starts, hadds.deeper⟩
  | @enter parent row child rest node l below l' _ _ hrow _ _ ihbelow ihrest =>
    obtain ⟨rows, curves, hbelow⟩ := ihbelow
    obtain ⟨rows', curves', hrest⟩ := ihrest
    have hdepth : row.depth = parent.depth + 1 := by rw [hrow]; rfl
    refine ⟨row :: rows ++ rows', curves ++ curve parent row :: curves', ?_, ?_, ?_, ?_, ?_⟩
    · rw [hrest.rows_eq, rows_addConnector, hbelow.rows_eq, rows_addRow]
      simp
    · rw [hrest.connectors_eq]
      simp [addConnector, hbelow.connectors_eq, addRow, curve]
    · -- the row's own curve comes after those of the rows below it
      simp only [List.map_append, List.map_cons, List.cons_append]
      exact List.perm_middle.trans ((hbelow.ends.append hrest.ends).cons _)
    · intro c hc
      simp only [List.mem_append, List.mem_cons] at hc
      simp only [List.map_append, List.map_cons, List.mem_append, List.mem_cons]
      rcases hc with hc | rfl | hc
      · rcases hbelow.starts c hc with h | h <;> simp [h]
      · exact Or.inl rfl
      · rcases hrest.starts c hc with h | h <;> simp [h]
    · intro q hq
      simp only [List.mem_append, List.mem_cons] at hq
      rcases hq with (rfl | hq) | hq
      · omega
      · have := hbelow.deeper q hq
        omega
      · exact hrest.deeper q hq

/-- Every curve joins a row to one that hangs below it. -/
def Hung (tree : QueueTree α) (l : TreeLayout α) : Prop :=
  ∀ c ∈ l.connectors, ∃ parent row, Hangs tree l parent row ∧ c = curve parent row

theorem Hung.mono (h : Hung tree l) (hrows : l.rows <+: l'.rows) (hconnectors : l'.connectors = l.connectors) :
    Hung tree l' := by
  intro c hc
  obtain ⟨parent, row, hangs, hcurve⟩ := h c (hconnectors ▸ hc)
  exact ⟨parent, row, hangs.mono hrows, hcurve⟩

theorem mem_addConnector {parent row : PlacedNode α} {c : Connector α} :
    c ∈ (l.addConnector parent row).connectors ↔ c ∈ l.connectors ∨ c = curve parent row := by
  simp [addConnector, curve]

/-- Nothing hangs below a folded row, for there a run ends. -/
theorem listed_of_mem_shown {id depth sequence c : Nat} {node : QueueNode α} (hn : tree.get? id = some node)
    (hc : c ∈ node.shown F) : (node.row F id depth sequence).folded = false ∧ tree.Links id c := by
  obtain ⟨hchild, hopen⟩ := mem_shown_iff.1 hc
  exact ⟨by simpa [QueueNode.row] using hopen, node, hn, hchild⟩

/-- A run below a row that is open draws curves to rows that hang there. -/
theorem Descent.hung (h : Descent tree F parent children l l') (hopen : Open l parent)
    (hlisted : ∀ c ∈ children, parent.folded = false ∧ tree.Links parent.id c) (hh : Hung tree l) :
    Hung tree l' := by
  induction h with
  | done => exact hh
  | again _ _ ih =>
    exact ih hopen (fun c hc => hlisted c (List.mem_cons_of_mem _ hc)) (hh.mono ⟨[], by simp⟩ rfl)
  | @enter parent row child rest node l below l' _ hn hrow hbelow _ ihbelow ihrest =>
    have hdepth : row.depth = parent.depth + 1 := by rw [hrow]; rfl
    have hid : row.id = child := by rw [hrow]; rfl
    obtain ⟨hunfolded, hlink⟩ := hlisted child List.mem_cons_self
    have hangs : Hangs tree (l.addRow row) parent row := hopen.hangs hdepth hunfolded (hid ▸ hlink)
    have hinner : ∀ c ∈ node.shown F, row.folded = false ∧ tree.Links row.id c := by
      intro c hc
      rw [hrow]
      exact listed_of_mem_shown hn hc
    have hhbelow : Hung tree below := ihbelow (open_addRow l row) hinner (hh.mono ⟨[row], rfl⟩ rfl)
    obtain ⟨rows, curves, hadds⟩ := hbelow.adds
    have hopen' : Open (below.addConnector parent row) parent := by
      refine hopen.mono (row :: rows) (by simp [hadds.rows_eq]) fun q hq => ?_
      rcases List.mem_cons.1 hq with rfl | hq
      · omega
      · have := hadds.deeper q hq
        omega
    refine ihrest hopen' (fun c hc => hlisted c (List.mem_cons_of_mem _ hc)) fun c hc => ?_
    rcases mem_addConnector.1 hc with hc | rfl
    · obtain ⟨p, r, hangs', hcurve⟩ := hhbelow c hc
      exact ⟨p, r, hangs'.mono ⟨[], by simp⟩, hcurve⟩
    · exact ⟨parent, row, hangs.mono ⟨rows, hadds.rows_eq.symm⟩, rfl⟩

/-- Below one queue a run draws the curves in the order in which the queue lists its children. -/
theorem Descent.listedAfter (h : Descent tree F parent children l l') (hs : Sound tree l) (hj : Joined l)
    (hparent : parent.id ∈ l.ids) (hreached : Reached tree F l parent children)
    (hf : l.connectors.Pairwise (ListedAfter tree l)) : l'.connectors.Pairwise (ListedAfter tree l') := by
  induction h with
  | done => exact hf
  | again hv _ ih =>
    exact ih (hs.congr rfl) hj hparent
      (hreached.step (List.Subset.refl _) (visited_eq_true_iff.1 hv) fun c hc _ => Or.inl hc) hf
  | @enter parent row child rest node l below l' hv hn hrow hbelow _ ihbelow ihrest =>
    obtain rfl : row.id = child := by rw [hrow]; rfl
    have hnew : row.id ∉ l.ids := visited_eq_false_iff.1 hv
    have hsrow : Sound tree (l.addRow row) := hs.addRow hv hn
    have hjrow : Joined (l.addRow row) := fun c hc => ⟨by simp [(hj c hc).1], by simp [(hj c hc).2]⟩
    have hfbelow := ihbelow hsrow hjrow (by simp)
      (reached_start hn fun c hc e => hnew (e ▸ (hj c hc).1)) (hj.listedAfter hf (ids_addRow l row))
    have hsbelow : Sound tree below := hbelow.sound hsrow
    have hjbelow : Joined below := hbelow.joined (by simp) hjrow
    obtain ⟨rows, curves, hadds⟩ := hbelow.adds
    have hids : below.ids = l.ids ++ row.id :: rows.map (·.id) := by simp [ids, hadds.rows_eq]
    have hin : parent.id ∈ below.ids := by simp [hids, hparent]
    -- the curves below the new row start there or further down, so not at `parent`
    have hold : ∀ c ∈ below.connectors, c.parent = parent.id → c ∈ l.connectors := by
      intro c hc he
      rcases List.mem_append.1 (hadds.connectors_eq ▸ hc) with hc | hc
      · exact hc
      · have hstart : parent.id ∈ row.id :: rows.map (·.id) := by
          rw [← he]
          exact List.mem_cons.2 (hadds.starts c hc)
        have hnd := hids ▸ hsbelow.nodup
        exact absurd rfl ((List.nodup_append.1 hnd).2.2 _ hparent _ hstart)
    refine ihrest (hsbelow.congr rfl) (fun c hc => ?_) hin (hreached.step ?_ ?_ ?_) ?_
    · rcases mem_addConnector.1 hc with hc | rfl
      · exact hjbelow c hc
      · exact ⟨hin, by simp [hids, curve]⟩
    · intro i hi
      simp [hids, hi]
    · simp [hids]
    · intro c hc he
      rcases mem_addConnector.1 hc with hc | rfl
      · exact Or.inl (hold c hc he)
      · exact Or.inr rfl
    · refine List.pairwise_append.2 ⟨hfbelow, List.pairwise_singleton _ _, fun c hc c' hc' => ?_⟩
      rw [List.mem_singleton.1 hc']
      exact hreached.listedAfter hnew hids (hold c hc) rfl rfl

/-! ## The whole tree -/

theorem path_curve (parent row : PlacedNode α) :
    (curve parent row).path.start? = some parent.position ∧ (curve parent row).path.end? = some row.position :=
  ⟨rfl, rfl⟩

/-- The picture of a tree: its rows, and the curves between them. -/
structure WellShaped (tree : QueueTree α) (F : FoldedSet) (l : TreeLayout α) : Prop where
  /-- Every row is a queue's, and no queue has two. -/
  distinct : l.ids.Nodup
  /-- Rows stand one below the other, and to the right by their depths. -/
  places : ∀ (i : Nat) (row : PlacedNode α), l.rows[i]? = some row → row.sequence = i ∧
    row.position = ⟨20 + 30 * Scalar.ofNat row.depth, 20 + 30 * Scalar.ofNat i⟩
  /-- A row is marked if its queue has children and is named in `F`. -/
  marks : ∀ row ∈ l.rows, ∃ node, tree.get? row.id = some node ∧ row.name = node.name ∧
    (row.folded = true ↔ node.children ≠ [] ∧ F.contains node.name = true)
  /-- At the top stands the root. -/
  top : ∀ row ∈ l.rows.head?, tree.rootId? = some row.id ∧ row.name = rootName ∧ row.depth = 0
  /-- Every other row hangs below one, and a curve joins them. -/
  hung : ∀ row ∈ l.rows.tail, ∃ parent, Hangs tree l parent row ∧ curve parent row ∈ l.connectors
  /-- That curve is the row's only one, and there are no others. -/
  curves : (l.connectors.map (·.child)).Perm (l.rows.tail.map (·.id))
  /-- Curves start and end on the rows. -/
  ends : ∀ c ∈ l.connectors, ∃ parent row, Hangs tree l parent row ∧ c.parent = parent.id ∧
    c.child = row.id ∧ c.path.start? = some parent.position ∧ c.path.end? = some row.position
  /-- Rows that hang below one row stand in the order in which its queue lists them. -/
  siblings : ∀ parent row row' node, curve parent row ∈ l.connectors → curve parent row' ∈ l.connectors →
    row ∈ l.rows → row' ∈ l.rows → tree.get? parent.id = some node →
    (row.sequence < row'.sequence ↔ node.children.idxOf row.id < node.children.idxOf row'.id)
  deepest : (∀ row ∈ l.rows, row.depth ≤ l.maxDepth) ∧ (l.rows ≠ [] → ∃ row ∈ l.rows, row.depth = l.maxDepth)

/-- A walk ends with the root's row, what hangs below it, and the curves in order. -/
theorem Walk.picture (h : Walk tree F l) : Hung tree l ∧ l.connectors.Pairwise (ListedAfter tree l) ∧
    (l.connectors.map (·.child)).Perm (l.rows.tail.map (·.id)) ∧
    ∀ row ∈ l.rows.head?, tree.rootId? = some row.id ∧ row.depth = 0 := by
  cases h with
  | nothing => simp [Hung]
  | @root id node _ hr hn hd =>
    let top : PlacedNode α := node.row F id 0 0
    have hlisted : ∀ c ∈ node.shown F, top.folded = false ∧ tree.Links top.id c :=
      fun c hc => listed_of_mem_shown hn hc
    obtain ⟨rows, curves, hadds⟩ := hd.adds
    have hrows : l.rows = top :: rows := hadds.rows_eq
    have hcurves : l.connectors = curves := hadds.connectors_eq
    refine ⟨hd.hung (open_addRow {} top) hlisted (by simp [Hung, addRow]), ?_, ?_, ?_⟩
    · exact hd.listedAfter ((sound_empty tree).addRow rfl hn) (by simp [Joined, addRow]) (by simp)
        (reached_start hn (by simp [addRow])) List.Pairwise.nil
    · rw [hcurves, hrows]
      exact hadds.ends
    · rw [hrows]
      rintro row ⟨⟩
      exact ⟨hr, rfl⟩

/-- **The picture of every snapshot is well shaped**, whatever is folded. -/
theorem compute_wellShaped (records : List (QueueRecord α)) (F : FoldedSet) :
    WellShaped (build records) F (compute (build records) F) := by
  have hl : (build records).Linked := build_linked records
  have hdistinct := (compute_sound (F := F) hl).nodup
  have hfaithful := compute_faithful (F := F) hl
  obtain ⟨hhung, hsiblings, hcurves, htop⟩ := (compute_walk hl F).picture
  generalize compute (build records) F = l at *
  have hindex : ∀ row ∈ l.rows, l.ids.idxOf row.id = row.sequence := by
    intro row hrow
    obtain ⟨i, hi⟩ := List.getElem?_of_mem hrow
    obtain ⟨node, -, he⟩ := hfaithful i row hi
    rw [idxOf_of_getElem? hdistinct (i := i) (by simp [ids, hi])]
    exact (congrArg PlacedNode.sequence he).symm
  refine ⟨hdistinct, fun i row hi => ?_, fun row hrow => ?_, fun row hrow => ?_, fun row hrow => ?_, hcurves,
    fun c hc => ?_, fun parent row row' node hc hc' hrow hrow' hn => ?_, maxDepth_spec l⟩
  · obtain ⟨node, -, he⟩ := hfaithful i row hi
    exact ⟨congrArg PlacedNode.sequence he, congrArg PlacedNode.position he⟩
  · obtain ⟨i, hi⟩ := List.getElem?_of_mem hrow
    obtain ⟨node, hn, he⟩ := hfaithful i row hi
    refine ⟨node, hn, congrArg PlacedNode.name he, ?_⟩
    rw [congrArg PlacedNode.folded he]
    simp [QueueNode.row, QueueNode.hasChildren]
  · obtain ⟨hroot, hdepth⟩ := htop row hrow
    obtain ⟨i, hi⟩ := List.getElem?_of_mem (List.mem_of_mem_head? hrow)
    obtain ⟨node, hn, he⟩ := hfaithful i row hi
    obtain ⟨root, hn', hname⟩ := get?_of_rootId? hroot
    cases hn.symm.trans hn'
    exact ⟨hroot, (congrArg PlacedNode.name he).trans hname, hdepth⟩
  · have hend : row.id ∈ l.connectors.map (·.child) := hcurves.mem_iff.2 (List.mem_map_of_mem hrow)
    obtain ⟨c, hc, hchild⟩ := List.mem_map.1 hend
    obtain ⟨parent, other, hangs, rfl⟩ := hhung c hc
    obtain rfl : other = row :=
      List.inj_on_of_nodup_map hdistinct hangs.mem.2 (List.mem_of_mem_tail hrow) hchild
    exact ⟨parent, hangs, hc⟩
  · obtain ⟨parent, row, hangs, rfl⟩ := hhung c hc
    exact ⟨parent, row, hangs, rfl, rfl, path_curve parent row⟩
  · rw [← hindex row hrow, ← hindex row' hrow']
    exact lt_iff_of_listedAfter hsiblings hc hc' rfl hn

end QueueBoard.TreeLayout
