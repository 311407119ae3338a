import QueueBoard.Proofs.Queue.Nesting
import QueueBoard.Scalar.Float
/-!
# The order of the records

The walk knows queues by their places in the tree, and these come from the order of the records.
`Renames σ t t'` says that `σ` takes the places of `t` to those of `t'` with all links. The walk over
`t'` is then the one over `t` with every place renamed (`compute_rename`): both meet a queue that has a
row already at the same moments, for `σ` never takes two places to one. Putting records without a
repeated name in another order is such a renaming (`build_renames`), so nothing in the picture depends
on it (`compute_of_perm`).
-/

namespace QueueBoard

variable {α : Type}

/-! ## Renaming -/

/-- The row of the queue at its new place in the tree. -/
def PlacedNode.rename (σ : Nat → Nat) (row : PlacedNode α) : PlacedNode α := { row with id := σ row.id }

/-- The curve between the new places of its ends. -/
def Connector.rename (σ : Nat → Nat) (c : Connector α) : Connector α :=
  { c with parent := σ c.parent, child := σ c.child }

/-- The same picture of a tree whose places are renamed. -/
def TreeLayout.rename (σ : Nat → Nat) (l : TreeLayout α) : TreeLayout α :=
  { l with rows := l.rows.map (·.rename σ), connectors := l.connectors.map (·.rename σ) }

namespace QueueTree

/-- `σ` takes every queue of `t` to the same queue of `t'`, and its links with it. -/
structure Renames (σ : Nat → Nat) (t t' : QueueTree α) : Prop where
  root : t'.rootId? = t.rootId?.map σ
  node : ∀ i n, t.get? i = some n →
    ∃ n', t'.get? (σ i) = some n' ∧ n'.record = n.record ∧ n'.children = n.children.map σ
  inj : ∀ i j, i < t.size → j < t.size → σ i = σ j → i = j

variable {σ : Nat → Nat} {t t' : QueueTree α}

theorem Renames.nameAt? (h : Renames σ t t') {i : Nat} (hi : i < t.size) :
    t'.nameAt? (σ i) = t.nameAt? i := by
  obtain ⟨n, hn⟩ := get?_of_lt hi
  obtain ⟨n', hn', hrecord, -⟩ := h.node i n hn
  simp [QueueTree.nameAt?, hn, hn', QueueNode.name, hrecord]

end QueueTree

namespace TreeLayout

open QueueTree

variable {σ : Nat → Nat} {tree tree' : QueueTree α} {F : FoldedSet} {l l' : TreeLayout α}
  {n n' : QueueNode α}

@[simp] theorem rename_addRow (row : PlacedNode α) :
    (l.addRow row).rename σ = (l.rename σ).addRow (row.rename σ) := by simp [rename, addRow]

@[simp] theorem rename_addRepeat (parent : PlacedNode α) :
    (l.addRepeat parent).rename σ = (l.rename σ).addRepeat (parent.rename σ) := rfl

@[simp] theorem length_rows_rename : (l.rename σ).rows.length = l.rows.length := by simp [rename]

theorem ids_rename : (l.rename σ).ids = l.ids.map σ := by
  simp [ids, rename, PlacedNode.rename, Function.comp_def]

theorem visited_rename (h : Renames σ tree tree') (hs : Sound tree l) {c : Nat} (hc : c < tree.size) :
    (l.rename σ).visited (σ c) = l.visited c := by
  rw [Bool.eq_iff_iff, visited_eq_true_iff, visited_eq_true_iff, ids_rename, List.mem_map]
  constructor
  · rintro ⟨i, hi, heq⟩
    -- rows are queues of the tree, where no two places meet
    have hic : i = c := h.inj i c (hs.bounded i hi) hc heq
    exact hic ▸ hi
  · exact fun hmem => ⟨c, hmem, rfl⟩

theorem shown_rename (hrecord : n'.record = n.record) (hchildren : n'.children = n.children.map σ) :
    n'.shown F = (n.shown F).map σ := by
  have hname : n'.name = n.name := congrArg QueueRecord.name hrecord
  unfold QueueNode.shown QueueNode.hasChildren
  rw [hname, hchildren, List.isEmpty_map]
  split <;> simp

variable [Scalar α]

@[simp] theorem rename_addConnector (parent child : PlacedNode α) :
    (l.addConnector parent child).rename σ = (l.rename σ).addConnector (parent.rename σ) (child.rename σ) := by
  simp [rename, addConnector, Connector.rename, PlacedNode.rename]

theorem row_rename (hrecord : n'.record = n.record) (hchildren : n'.children = n.children.map σ)
    (id depth sequence : Nat) :
    n'.row F (σ id) depth sequence = (n.row F id depth sequence).rename σ := by
  have hname : n'.name = n.name := congrArg QueueRecord.name hrecord
  simp [QueueNode.row, PlacedNode.rename, QueueNode.hasChildren, hname, hchildren]

/-! ## The walk over a renamed tree -/

theorem Descent.rename (h : Renames σ tree tree') (hl : tree.Linked) {parent : PlacedNode α}
    {children : List Nat} (hd : Descent tree F parent children l l') (hs : Sound tree l)
    (hc : ∀ c ∈ children, c < tree.size) :
    Descent tree' F (parent.rename σ) (children.map σ) (l.rename σ) (l'.rename σ) := by
  -- soundness of the picture so far says that its ids are places of the tree, where `σ` is injective
  induction hd with
  | done parent l => exact .done _ _
  | @again parent child rest l l' hv _ ih =>
    obtain ⟨hchild, hrest⟩ := List.forall_mem_cons.1 hc
    have hvisited : (l.rename σ).visited (σ child) = true := by rw [visited_rename h hs hchild, hv]
    have hafter := ih (hs.congr rfl) hrest
    rw [rename_addRepeat] at hafter
    exact .again hvisited hafter
  | @enter parent row child rest node l below l' hv hn hrow hbelow _ ihbelow ihrest =>
    subst hrow
    obtain ⟨hchild, hrest⟩ := List.forall_mem_cons.1 hc
    obtain ⟨node', hn', hrecord, hchildren⟩ := h.node child node hn
    have hvisited : (l.rename σ).visited (σ child) = false := by rw [visited_rename h hs hchild, hv]
    have hrow := row_rename (F := F) hrecord hchildren child (parent.depth + 1) l.rows.length
    have hsound : Sound tree (l.addRow (node.row F child (parent.depth + 1) l.rows.length)) :=
      hs.addRow hv hn
    have hinner := ihbelow hsound fun c hc =>
      hl node (mem_nodes_of_get? hn) c (node.shown_subset F hc)
    have hafter := ihrest ((hbelow.sound hsound).congr rfl) hrest
    rw [rename_addRow, ← shown_rename hrecord hchildren] at hinner
    rw [rename_addConnector] at hafter
    refine .enter hvisited hn' ?_ hinner hafter
    rw [length_rows_rename]
    exact hrow.symm

/-- **The walk over a renamed tree is the renamed walk.** -/
theorem compute_rename (h : Renames σ tree tree') (hl : tree.Linked) (hl' : tree'.Linked) (F : FoldedSet) :
    compute tree' F = (compute tree F).rename σ := by
  refine ((walk_iff hl').1 ?_).symm
  have hwalk := compute_walk hl F
  generalize compute tree F = l at hwalk
  cases hwalk with
  | nothing hr => exact .nothing (by rw [h.root, hr]; rfl)
  | @root id node _ hr hn hd =>
    obtain ⟨node', hn', hrecord, hchildren⟩ := h.node id node hn
    have hstart : Sound tree (addRow {} (node.row F id 0 0)) := (sound_empty tree).addRow rfl hn
    have hdescent := hd.rename h hl hstart fun c hc =>
      hl node (mem_nodes_of_get? hn) c (node.shown_subset F hc)
    rw [rename_addRow, ← shown_rename hrecord hchildren, ← row_rename hrecord hchildren] at hdescent
    exact .root (by rw [h.root, hr]; rfl) hn' hdescent

/-! ## What connectors join -/

/-- Both ends of every curve have rows. -/
def Joined (l : TreeLayout α) : Prop := ∀ c ∈ l.connectors, c.parent ∈ l.ids ∧ c.child ∈ l.ids

theorem Descent.joined {parent : PlacedNode α} {children : List Nat}
    (h : Descent tree F parent children l l') (hp : parent.id ∈ l.ids) (hj : Joined l) : Joined l' := by
  induction h with
  | done => exact hj
  | again _ _ ih => exact ih hp hj
  | @enter parent row child rest node l below l' _ _ hrow hbelow _ ihbelow ihrest =>
    have hids : (l.addRow row).ids ⊆ below.ids := hbelow.ids_subset
    have hparent : parent.id ∈ below.ids := hids (by simp [hp])
    have hself : row.id ∈ (l.addRow row).ids := by simp
    have hbefore : Joined (l.addRow row) := fun c hc =>
      ⟨by simp [(hj c hc).1], by simp [(hj c hc).2]⟩
    refine ihrest hparent fun c hc => ?_
    rcases List.mem_append.1 hc with hc | hc
    · exact ihbelow hself hbefore c hc
    · rw [List.mem_singleton.1 hc]
      exact ⟨hparent, hids hself⟩

theorem compute_joined (hl : tree.Linked) : Joined (compute tree F) := by
  have hwalk := compute_walk hl F
  generalize compute tree F = l at hwalk
  cases hwalk with
  | nothing => simp [Joined]
  | root _ _ hd => exact hd.joined (by simp) (by simp [Joined, addRow])

end TreeLayout

/-! ## Records in another order -/

namespace QueueTree

variable {records records' : List (QueueRecord α)}

/-- The new place of the queue at a place, when its record moves. -/
def newPlace (records records' : List (QueueRecord α)) (i : Nat) : Nat :=
  (records[i]?.map fun r => slot records' r.name).getD 0

theorem newPlace_of_getElem? {i : Nat} {r : QueueRecord α} (h : records[i]? = some r) :
    newPlace records records' i = slot records' r.name := by simp [newPlace, h]

theorem getElem?_slot (hd : (records.map (·.name)).Nodup) {r : QueueRecord α} (h : r ∈ records) :
    records[slot records r.name]? = some r := by
  obtain ⟨i, hi⟩ := List.getElem?_of_mem h
  rw [slot_eq hd hi, hi]

theorem position?_perm (hp : records.Perm records') (hd : (records.map (·.name)).Nodup) (name : String) :
    position? records' name = (position? records name).map (newPlace records records') := by
  by_cases hmem : name ∈ records.map (·.name)
  · have hmem' : name ∈ records'.map (·.name) := (hp.map _).mem_iff.1 hmem
    obtain ⟨r, hr, rfl⟩ := List.mem_map.1 hmem
    rw [position?_slot hmem, position?_slot hmem', Option.map_some,
      newPlace_of_getElem? (getElem?_slot hd hr)]
  · have hmem' : name ∉ records'.map (·.name) := fun h => hmem ((hp.map _).mem_iff.2 h)
    have hnone : ∀ rs : List (QueueRecord α), name ∉ rs.map (·.name) → position? rs name = none := by
      intro rs h
      refine List.findIdx?_eq_none_iff.2 fun r hr => ?_
      exact beq_eq_false_iff_ne.2 fun heq => h (List.mem_map.2 ⟨r, hr, heq⟩)
    rw [hnone _ hmem, hnone _ hmem']
    rfl

theorem resolve_children_perm (hp : records.Perm records') (hd : (records.map (·.name)).Nodup)
    (r : QueueRecord α) :
    (resolve records' r).children = (resolve records r).children.map (newPlace records records') := by
  have hposition : position? records' = fun name =>
      (position? records name).map (newPlace records records') := funext (position?_perm hp hd)
  rw [resolve, resolve, hposition, List.map_filterMap]

/-- **Another order of the records is a renaming of places.** -/
theorem build_renames (hp : records.Perm records') (hd : (records.map (·.name)).Nodup) :
    Renames (newPlace records records') (build records) (build records') := by
  have hd' : (records'.map (·.name)).Nodup := (hp.map _).nodup_iff.1 hd
  have hnodes : ∀ rs : List (QueueRecord α), (rs.map (·.name)).Nodup →
      build rs = ⟨rs.map (resolve rs)⟩ := fun rs h => by rw [build, firstRecords_eq_self h]
  have hroot : ∀ rs : List (QueueRecord α), (rs.map (·.name)).Nodup →
      (build rs).rootId? = position? rs rootName := by
    intro rs h
    rw [hnodes rs h, rootId?, idOf?, List.findIdx?_map]
    rfl
  refine ⟨?_, ?_, ?_⟩
  · rw [hroot _ hd, hroot _ hd', position?_perm hp hd]
  · intro i n hn
    rw [get?_build, firstRecords_eq_self hd] at hn
    obtain ⟨r, hr, rfl⟩ := Option.map_eq_some_iff.1 hn
    have hr' : r ∈ records' := hp.mem_iff.1 (List.mem_of_getElem? hr)
    refine ⟨resolve records' r, ?_, rfl, resolve_children_perm hp hd r⟩
    rw [newPlace_of_getElem? hr]
    exact get?_build_of_nodup hd' (getElem?_slot hd' hr')
  · intro i j hi hj heq
    simp only [hnodes _ hd, size, List.length_map] at hi hj
    have hri := List.getElem?_eq_getElem hi
    have hrj := List.getElem?_eq_getElem hj
    rw [newPlace_of_getElem? hri, newPlace_of_getElem? hrj] at heq
    -- at its new place each of the two finds its own record again
    have hsame : records[i] = records[j] := by
      have hi' := getElem?_slot hd' (hp.mem_iff.1 (List.getElem_mem hi))
      have hj' := getElem?_slot hd' (hp.mem_iff.1 (List.getElem_mem hj))
      rw [heq, hj'] at hi'
      exact (Option.some.inj hi').symm
    rw [← slot_eq hd hri, ← slot_eq hd hrj, hsame]

end QueueTree

namespace TreeLayout

open QueueTree

variable [Scalar α]

/-- **The picture of the tree does not depend on the order of the records.** -/
theorem compute_of_perm {records records' : List (QueueRecord α)} (hp : records.Perm records')
    (hd : (records.map (·.name)).Nodup) (F : FoldedSet) :
    let tree := build records
    let tree' := build records'
    let l := compute tree F
    let l' := compute tree' F
    l'.rows.map (fun row => { row with id := 0 }) = l.rows.map (fun row => { row with id := 0 }) ∧
      l'.connectors.map (fun c => (tree'.nameAt? c.parent, tree'.nameAt? c.child, c.path)) =
        l.connectors.map (fun c => (tree.nameAt? c.parent, tree.nameAt? c.child, c.path)) ∧
      (∀ c ∈ l.connectors, ∃ parent ∈ l.rows, ∃ child ∈ l.rows,
        tree.nameAt? c.parent = some parent.name ∧ tree.nameAt? c.child = some child.name) ∧
      l'.bannerWidth = l.bannerWidth := by
  intro tree tree' l l'
  have hl : tree.Linked := build_linked records
  have hrenames := build_renames hp hd
  have hrename : l' = l.rename (newPlace records records') :=
    compute_rename hrenames hl (build_linked records') F
  have hjoined : Joined l := compute_joined hl
  have hbounded := (compute_sound (F := F) hl).bounded
  have hnamed : ∀ i ∈ l.ids, ∃ row ∈ l.rows, tree.nameAt? i = some row.name := by
    intro i hi
    obtain ⟨row, hrow, rfl⟩ := List.mem_map.1 hi
    obtain ⟨node, hn, hname⟩ := node_of_mem_compute hl hrow
    exact ⟨row, hrow, by rw [QueueTree.nameAt?, hn, hname]; rfl⟩
  refine ⟨?_, ?_, fun c hc => ?_, ?_⟩
  · rw [hrename, rename, List.map_map]
    rfl
  · rw [hrename, rename, List.map_map]
    refine List.map_congr_left fun c hc => ?_
    obtain ⟨hparent, hchild⟩ := hjoined c hc
    simp only [Function.comp_apply, Connector.rename]
    rw [hrenames.nameAt? (hbounded _ hparent), hrenames.nameAt? (hbounded _ hchild)]
  · obtain ⟨parent, hparent, hpname⟩ := hnamed _ (hjoined c hc).1
    obtain ⟨child, hchild, hcname⟩ := hnamed _ (hjoined c hc).2
    exact ⟨parent, hparent, child, hchild, hpname, hcname⟩
  · rw [hrename, bannerWidth, maxDepth, rename, List.map_map]
    rfl

/-- A loop, a queue with two parents and a fold, told forwards and backwards. -/
theorem compute_of_perm_reverse :
    let record (name : String) (children : List String) : QueueRecord Float :=
      { QueueRecord.named name with children }
    let records := [record "root" ["a", "b"], record "a" ["b", "root"], record "b" ["c"], record "c" []]
    let F : FoldedSet := ⟨["b"]⟩
    records.Perm records.reverse ∧ (records.map (·.name)).Nodup ∧
      (compute (build records.reverse) F).rows.map (fun row => { row with id := 0 }) =
        (compute (build records) F).rows.map (fun row => { row with id := 0 }) ∧
      (compute (build records) F).rows.map (·.name) = ["root", "a", "b"] := by
  intro record records F
  have hp : records.Perm records.reverse := (List.reverse_perm records).symm
  have hd : (records.map (·.name)).Nodup := by decide
  exact ⟨hp, hd, (compute_of_perm hp hd F).1, by decide⟩

end TreeLayout

end QueueBoard
