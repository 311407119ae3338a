import QueueBoard.Proofs.Queue.Arena
import QueueBoard.Queue.Layout
import Mathlib.Data.List.Perm.Subperm
/-!
# The walk over a queue tree

`Walk` is the placement of the visible tree without any bound on its depth: a derivation is one
finite run of the walk, one rule for every way it can go on. Main statement, `walk_iff`: on a tree
whose links point to nodes the run exists, it is the only one, and `compute` is its result, so the
bound of `place` never cuts a walk off. Invariants of placements are then inductions over runs.
-/

namespace QueueBoard

variable {α : Type}

namespace QueueNode

/-- The children the walk goes on with: none below a folded queue. -/
def shown (F : FoldedSet) (n : QueueNode α) : List Nat :=
  if n.hasChildren && F.contains n.name then [] else n.children

theorem shown_subset (F : FoldedSet) (n : QueueNode α) : n.shown F ⊆ n.children := by
  unfold shown
  split
  · simp
  · exact List.Subset.refl _

end QueueNode

namespace TreeLayout

/-- The positions in the tree of the rows. -/
def ids (l : TreeLayout α) : List Nat := l.rows.map (·.id)

/-- One more row. -/
def addRow (l : TreeLayout α) (row : PlacedNode α) : TreeLayout α := { l with rows := l.rows ++ [row] }

/-- One more link to a queue already placed. -/
def addRepeat (l : TreeLayout α) (parent : PlacedNode α) : TreeLayout α :=
  { l with repeats := l.repeats ++ [parent.name] }

@[simp] theorem rows_addRow (l : TreeLayout α) (row : PlacedNode α) :
    (l.addRow row).rows = l.rows ++ [row] := rfl

@[simp] theorem rows_addRepeat (l : TreeLayout α) (parent : PlacedNode α) :
    (l.addRepeat parent).rows = l.rows := rfl

@[simp] theorem ids_addRow (l : TreeLayout α) (row : PlacedNode α) :
    (l.addRow row).ids = l.ids ++ [row.id] := by simp [ids]

@[simp] theorem length_ids (l : TreeLayout α) : l.ids.length = l.rows.length := by simp [ids]

theorem visited_eq_true_iff {l : TreeLayout α} {id : Nat} : l.visited id = true ↔ id ∈ l.ids := by
  simp [visited, ids]

theorem visited_eq_false_iff {l : TreeLayout α} {id : Nat} : l.visited id = false ↔ id ∉ l.ids := by
  rw [← visited_eq_true_iff, Bool.not_eq_true]

/-- No queue has two rows, and every row is a node's. -/
structure Sound (tree : QueueTree α) (l : TreeLayout α) : Prop where
  nodup : l.ids.Nodup
  bounded : ∀ i ∈ l.ids, i < tree.size

/-- The rows are all that counts. -/
theorem Sound.congr {tree : QueueTree α} {l l' : TreeLayout α} (hs : Sound tree l)
    (h : l'.rows = l.rows) : Sound tree l' := by
  have hids : l'.ids = l.ids := by simp [ids, h]
  exact ⟨hids ▸ hs.nodup, hids ▸ hs.bounded⟩

theorem sound_empty (tree : QueueTree α) : Sound tree {} := ⟨by simp [ids], by simp [ids]⟩

theorem Sound.addRow {tree : QueueTree α} {l : TreeLayout α} {row : PlacedNode α} {node : QueueNode α}
    (hs : Sound tree l) (hv : l.visited row.id = false) (hn : tree.get? row.id = some node) :
    Sound tree (l.addRow row) := by
  have hout := visited_eq_false_iff.1 hv
  refine ⟨?_, fun i hi => ?_⟩
  · rw [ids_addRow, List.nodup_append]
    exact ⟨hs.nodup, by simp, by simp; intro a ha e; exact hout (e ▸ ha)⟩
  · rw [ids_addRow, List.mem_append, List.mem_singleton] at hi
    rcases hi with hi | rfl
    · exact hs.bounded i hi
    · exact QueueTree.lt_of_get? hn

/-- While a node is left without a row, there are fewer rows than nodes. -/
theorem Sound.room {tree : QueueTree α} {l : TreeLayout α} (hs : Sound tree l) {id : Nat}
    (hid : id < tree.size) (hout : id ∉ l.ids) : l.rows.length < tree.size := by
  have hnd : (id :: l.ids).Nodup := List.nodup_cons.2 ⟨hout, hs.nodup⟩
  have hsub : id :: l.ids ⊆ List.range tree.size := by
    intro i hi
    rcases List.mem_cons.1 hi with rfl | hi
    · exact List.mem_range.2 hid
    · exact List.mem_range.2 (hs.bounded i hi)
  have hlen := (List.subperm_of_subset hnd hsub).length_le
  rw [List.length_cons, length_ids, List.length_range] at hlen
  exact hlen

end TreeLayout

variable [Scalar α]

namespace QueueNode

/-- The row of a node at a place of the picture. -/
def row (F : FoldedSet) (n : QueueNode α) (id depth sequence : Nat) : PlacedNode α :=
  { id, name := n.name, position := nodePosition depth sequence, depth, sequence
    folded := n.hasChildren && F.contains n.name, hasChildren := n.hasChildren }

end QueueNode

namespace TreeLayout

/-- One more curve. -/
def addConnector (l : TreeLayout α) (parent child : PlacedNode α) : TreeLayout α :=
  { l with connectors :=
      l.connectors ++ [⟨parent.id, child.id, connectorPath parent.position child.position⟩] }

@[simp] theorem rows_addConnector (l : TreeLayout α) (parent child : PlacedNode α) :
    (l.addConnector parent child).rows = l.rows := rfl

/-! ## Runs -/

/-- `Descent tree F parent children l l'`: going through `children` of the row `parent` takes the
layout `l` to `l'`. -/
inductive Descent (tree : QueueTree α) (F : FoldedSet) :
    PlacedNode α → List Nat → TreeLayout α → TreeLayout α → Prop
  | done (parent : PlacedNode α) (l : TreeLayout α) : Descent tree F parent [] l l
  | again {parent : PlacedNode α} {child : Nat} {rest : List Nat} {l l' : TreeLayout α} :
      l.visited child = true → Descent tree F parent rest (l.addRepeat parent) l' →
      Descent tree F parent (child :: rest) l l'
  | enter {parent row : PlacedNode α} {child : Nat} {rest : List Nat} {node : QueueNode α}
      {l below l' : TreeLayout α} :
      l.visited child = false → tree.get? child = some node →
      row = node.row F child (parent.depth + 1) l.rows.length →
      Descent tree F row (node.shown F) (l.addRow row) below →
      Descent tree F parent rest (below.addConnector parent row) l' →
      Descent tree F parent (child :: rest) l l'

/-- `Walk tree F l`: the walk over the visible tree ends with the layout `l`. -/
inductive Walk (tree : QueueTree α) (F : FoldedSet) : TreeLayout α → Prop
  | nothing : tree.rootId? = none → Walk tree F {}
  | root {id : Nat} {node : QueueNode α} {l : TreeLayout α} :
      tree.rootId? = some id → tree.get? id = some node →
      Descent tree F (node.row F id 0 0) (node.shown F) (addRow {} (node.row F id 0 0)) l →
      Walk tree F l

variable {tree : QueueTree α} {F : FoldedSet} {parent : PlacedNode α} {children : List Nat}
  {l l' : TreeLayout α}

/-- The walk leaves no choice. -/
theorem Descent.unique {l'' : TreeLayout α} (h : Descent tree F parent children l l')
    (h' : Descent tree F parent children l l'') : l' = l'' := by
  induction h generalizing l'' with
  | done => cases h'; rfl
  | again hv _ ih =>
    cases h' with
    | again _ hrest => exact ih hrest
    | enter hv' => rw [hv] at hv'; cases hv'
  | enter hv hn hrow _ _ ihbelow ihrest =>
    cases h' with
    | again hv' => rw [hv] at hv'; cases hv'
    | enter _ hn' hrow' hbelow hrest =>
      rw [hn] at hn'
      cases hn'
      subst hrow hrow'
      cases ihbelow hbelow
      exact ihrest hrest

theorem Walk.unique (h : Walk tree F l) (h' : Walk tree F l') : l = l' := by
  cases h with
  | nothing hr =>
    cases h' with
    | nothing => rfl
    | root hr' => rw [hr] at hr'; cases hr'
  | root hr hn hd =>
    cases h' with
    | nothing hr' => rw [hr] at hr'; cases hr'
    | root hr' hn' hd' =>
      rw [hr] at hr'
      cases hr'
      rw [hn] at hn'
      cases hn'
      exact hd.unique hd'

/-- A run only adds rows at the end. -/
theorem Descent.rows_append (h : Descent tree F parent children l l') :
    ∃ more, l'.rows = l.rows ++ more := by
  induction h with
  | done => exact ⟨[], by simp⟩
  | again _ _ ih => simpa using ih
  | enter _ _ _ _ _ ihbelow ihrest =>
    obtain ⟨a, ha⟩ := ihbelow
    obtain ⟨b, hb⟩ := ihrest
    exact ⟨_, by rw [hb, rows_addConnector, ha, rows_addRow, List.append_assoc, List.append_assoc]⟩

theorem Descent.ids_subset (h : Descent tree F parent children l l') : l.ids ⊆ l'.ids := by
  obtain ⟨more, hmore⟩ := h.rows_append
  intro i hi
  simp only [ids, hmore, List.map_append, List.mem_append]
  exact Or.inl hi

theorem Descent.length_le (h : Descent tree F parent children l l') :
    l.rows.length ≤ l'.rows.length := by
  obtain ⟨more, hmore⟩ := h.rows_append
  simp [hmore]

theorem Descent.sound (h : Descent tree F parent children l l') (hs : Sound tree l) :
    Sound tree l' := by
  induction h with
  | done => exact hs
  | again _ _ ih => exact ih (hs.congr rfl)
  | enter hv hn hrow _ _ ihbelow ihrest =>
    subst hrow
    exact ihrest ((ihbelow (hs.addRow hv hn)).congr rfl)

/-- Every row is the one its node gets there. -/
def Faithful (tree : QueueTree α) (F : FoldedSet) (l : TreeLayout α) : Prop :=
  ∀ (i : Nat) (row : PlacedNode α), l.rows[i]? = some row →
    ∃ node, tree.get? row.id = some node ∧ row = node.row F row.id row.depth i

theorem Faithful.addRow {id depth : Nat} {node : QueueNode α} (hf : Faithful tree F l)
    (hn : tree.get? id = some node) : Faithful tree F (l.addRow (node.row F id depth l.rows.length)) := by
  intro i row hi
  rw [rows_addRow, List.getElem?_append] at hi
  split at hi
  · exact hf i row hi
  · have hlast : i - l.rows.length = 0 ∧ node.row F id depth l.rows.length = row := by
      simpa [List.getElem?_singleton] using hi
    obtain ⟨h0, rfl⟩ := hlast
    refine ⟨node, hn, ?_⟩
    rw [show i = l.rows.length by omega]
    rfl

theorem Descent.faithful (h : Descent tree F parent children l l') (hf : Faithful tree F l) :
    Faithful tree F l' := by
  induction h with
  | done => exact hf
  | again _ _ ih => exact ih hf
  | enter _ hn hrow _ _ ihbelow ihrest =>
    subst hrow
    exact ihrest (ihbelow (hf.addRow hn))

/-! ## The bound is enough -/

/-- What `place` does for one child. -/
def visit (tree : QueueTree α) (F : FoldedSet) (fuel : Nat) (parent : PlacedNode α)
    (l : TreeLayout α) (child : Nat) : TreeLayout α :=
  if l.visited child then l.addRepeat parent
  else
    let l' := place tree F fuel child (parent.depth + 1) l
    { l' with connectors := l'.connectors ++
        [⟨parent.id, child, connectorPath parent.position (nodePosition (parent.depth + 1) l.rows.length)⟩] }

theorem place_succ {fuel id depth : Nat} {node : QueueNode α} (hn : tree.get? id = some node) :
    place tree F (fuel + 1) id depth l =
      (node.shown F).foldl (visit tree F fuel (node.row F id depth l.rows.length))
        (l.addRow (node.row F id depth l.rows.length)) := by
  simp only [place, hn, QueueNode.shown]
  split
  · simp_all [addRow, QueueNode.row]
  · simp_all [addRow, QueueNode.row]
    rfl

/-- With room for every node without a row, `place` is a run. -/
theorem place_descent (hl : tree.Linked) (F : FoldedSet) :
    ∀ (fuel : Nat) {id : Nat} (depth : Nat) {node : QueueNode α} {l : TreeLayout α}, Sound tree l →
      l.visited id = false → tree.get? id = some node → tree.size ≤ fuel + l.rows.length →
      Descent tree F (node.row F id depth l.rows.length) (node.shown F)
        (l.addRow (node.row F id depth l.rows.length)) (place tree F fuel id depth l)
  | 0, _, _, _, _, hs, hv, hn, hroom => by
    have := hs.room (QueueTree.lt_of_get? hn) (visited_eq_false_iff.1 hv)
    omega
  | fuel + 1, id, depth, node, l, hs, hv, hn, hroom => by
    rw [place_succ hn]
    -- the loop over the children, for any layout with that much room left
    have loop : ∀ (cs : List Nat) (parent : PlacedNode α) (m : TreeLayout α), (∀ c ∈ cs, c < tree.size) →
        Sound tree m → tree.size ≤ fuel + m.rows.length →
        Descent tree F parent cs m (cs.foldl (visit tree F fuel parent) m) := by
      intro cs
      induction cs with
      | nil => exact fun parent m _ _ _ => .done parent m
      | cons c rest ih =>
        intro parent m hcs hm hfuel
        have hrest : ∀ c ∈ rest, c < tree.size := fun c hc => hcs c (List.mem_cons_of_mem _ hc)
        rw [List.foldl_cons]
        by_cases hc : m.visited c = true
        · have hstep : visit tree F fuel parent m c = m.addRepeat parent := by simp [visit, hc]
          rw [hstep]
          exact .again hc (ih _ _ hrest (hm.congr rfl) hfuel)
        · rw [Bool.not_eq_true] at hc
          obtain ⟨child, hchild⟩ := QueueTree.get?_of_lt (hcs c List.mem_cons_self)
          have hbelow := place_descent hl F fuel (parent.depth + 1) hm hc hchild hfuel
          have hstep : visit tree F fuel parent m c = (place tree F fuel c (parent.depth + 1) m).addConnector
              parent (child.row F c (parent.depth + 1) m.rows.length) := by
            simp [visit, hc, addConnector, QueueNode.row]
          have hlen := hbelow.length_le
          have hsound := hbelow.sound (hm.addRow hc hchild)
          rw [hstep]
          refine .enter hc hchild rfl hbelow (ih _ _ hrest (hsound.congr rfl) ?_)
          simp only [rows_addRow, List.length_append, List.length_singleton] at hlen
          simp only [rows_addConnector]
          omega
    refine loop _ _ _ (fun c hc => ?_) (hs.addRow hv hn) (by simp; omega)
    exact hl node (QueueTree.mem_nodes_of_get? hn) c (node.shown_subset F hc)

/-- **The walk ends, and `compute` is its result.** -/
theorem compute_walk (hl : tree.Linked) (F : FoldedSet) : Walk tree F (compute tree F) := by
  cases hr : tree.rootId? with
  | none => simpa [compute, hr] using Walk.nothing (F := F) hr
  | some id =>
    obtain ⟨node, hn, -⟩ := QueueTree.get?_of_rootId? hr
    have hd := place_descent hl F tree.size 0 (sound_empty tree) rfl hn (by simp)
    simpa [compute, hr] using Walk.root hr hn hd

theorem walk_iff (hl : tree.Linked) : Walk tree F l ↔ l = compute tree F :=
  ⟨fun h => h.unique (compute_walk hl F), fun h => h ▸ compute_walk hl F⟩

theorem compute_sound (hl : tree.Linked) : Sound tree (compute tree F) := by
  have h := compute_walk hl F
  generalize compute tree F = l at h
  cases h with
  | nothing => exact sound_empty tree
  | root _ hn hd => exact hd.sound ((sound_empty tree).addRow rfl hn)

theorem compute_faithful (hl : tree.Linked) : Faithful tree F (compute tree F) := by
  have hempty : Faithful tree F {} := fun i row hi => by simp at hi
  have h := compute_walk hl F
  generalize compute tree F = l at h
  cases h with
  | nothing => exact hempty
  | root _ hn hd => exact hd.faithful (hempty.addRow hn)

theorem node_of_mem_compute (hl : tree.Linked) {row : PlacedNode α} (h : row ∈ (compute tree F).rows) :
    ∃ node, tree.get? row.id = some node ∧ row.name = node.name := by
  obtain ⟨i, hi⟩ := List.getElem?_of_mem h
  obtain ⟨node, hn, hrow⟩ := compute_faithful hl i row hi
  exact ⟨node, hn, congrArg PlacedNode.name hrow⟩

/-- No name has two rows. -/
theorem compute_names_nodup (hl : tree.Linked) (hd : tree.Distinct) :
    ((compute tree F).rows.map (·.name)).Nodup := by
  have hids := (compute_sound (F := F) hl).nodup
  rw [List.Nodup, List.pairwise_map]
  rw [ids, List.Nodup, List.pairwise_map] at hids
  refine hids.imp_of_mem fun {a b} ha hb hne hname => hne ?_
  obtain ⟨m, hm, hma⟩ := node_of_mem_compute hl ha
  obtain ⟨n, hn, hnb⟩ := node_of_mem_compute hl hb
  exact QueueTree.id_eq_of_name_eq hd hm hn (by rw [← hma, ← hnb, hname])

end TreeLayout

end QueueBoard
