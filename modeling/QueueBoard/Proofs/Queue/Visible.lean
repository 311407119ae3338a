import QueueBoard.Proofs.Queue.Walk
import Mathlib.Data.List.Chain
/-!
# Which queues are visible

A queue has a row iff a path of child links leads to it from the root on which nothing before it is
folded (`compute_rows_iff_openPath`). The walk is sound because every link it follows prolongs such a
path, and complete because its rows are closed under the links it follows: it leaves no white node
behind, whatever cycles and shared children there are.
-/

namespace QueueBoard

variable {α : Type}

namespace QueueTree

/-- `c` is among the children of the node at `p`. -/
def Links (t : QueueTree α) (p c : Nat) : Prop := ∃ node, t.get? p = some node ∧ c ∈ node.children

/-- The node at `p` has something to fold and its name is in `F`. -/
def FoldsAt (t : QueueTree α) (F : FoldedSet) (p : Nat) : Prop :=
  ∃ node, t.get? p = some node ∧ node.hasChildren = true ∧ F.contains node.name = true

/-- A path of child links from `root` to `id` on which no node before the last one is folded. -/
structure OpenPath (t : QueueTree α) (F : FoldedSet) (root : Nat) (path : List Nat) (id : Nat) : Prop where
  starts : path.head? = some root
  ends : path.getLast? = some id
  links : path.IsChain t.Links
  unfolded : ∀ p ∈ path.dropLast, ¬ t.FoldsAt F p

theorem mem_shown_iff {F : FoldedSet} {n : QueueNode α} {c : Nat} :
    c ∈ n.shown F ↔ c ∈ n.children ∧ ¬ (n.hasChildren = true ∧ F.contains n.name = true) := by
  rw [QueueNode.shown, ← Bool.and_eq_true]
  split
  · rename_i h
    simp [h]
  · rename_i h
    exact ⟨fun hc => ⟨hc, h⟩, And.left⟩

/-- The nodes that open paths lead to. -/
inductive Reaches (t : QueueTree α) (F : FoldedSet) : Nat → Prop
  | root {id : Nat} : t.rootId? = some id → Reaches t F id
  | child {p c : Nat} {node : QueueNode α} :
      Reaches t F p → t.get? p = some node → c ∈ node.shown F → Reaches t F c

variable {tree : QueueTree α} {F : FoldedSet}

theorem OpenPath.concat {root p c : Nat} {path : List Nat} {node : QueueNode α}
    (h : OpenPath tree F root path p) (hn : tree.get? p = some node) (hc : c ∈ node.shown F) :
    OpenPath tree F root (path ++ [c]) c := by
  obtain ⟨hchild, hopen⟩ := mem_shown_iff.1 hc
  have hpath : path = path.dropLast ++ [p] := (List.dropLast_append_getLast? p h.ends).symm
  have hne : path ≠ [] := by rw [hpath]; simp
  refine ⟨?_, by simp, ?_, ?_⟩
  · rw [List.head?_append_of_ne_nil _ hne, h.starts]
  · refine List.isChain_append.2 ⟨h.links, List.isChain_singleton c, ?_⟩
    intro q hq d hd
    rw [h.ends] at hq
    cases hq
    cases hd
    exact ⟨node, hn, hchild⟩
  · rw [List.dropLast_concat, hpath]
    intro q hq
    rcases List.mem_append.1 hq with hq | hq
    · exact h.unfolded q hq
    · rw [List.mem_singleton] at hq
      rintro ⟨n, hn', hf⟩
      rw [hq, hn] at hn'
      cases hn'
      exact hopen hf

theorem Reaches.openPath {id : Nat} (h : Reaches tree F id) :
    ∃ root path, tree.rootId? = some root ∧ OpenPath tree F root path id := by
  induction h with
  | @root id hr => exact ⟨id, [id], hr, rfl, rfl, List.isChain_singleton id, by simp⟩
  | child _ hn hc ih =>
    obtain ⟨root, path, hr, hpath⟩ := ih
    exact ⟨root, _, hr, hpath.concat hn hc⟩

/-- From a node that is reached, an open path reaches its end. -/
theorem Reaches.of_chain : ∀ {path : List Nat} {start id : Nat}, Reaches tree F start →
    (start :: path).IsChain tree.Links → (∀ p ∈ (start :: path).dropLast, ¬ tree.FoldsAt F p) →
    (start :: path).getLast? = some id → Reaches tree F id
  | [], start, id, hs, _, _, hlast => by
    cases hlast
    exact hs
  | next :: path, start, id, hs, hchain, hopen, hlast => by
    obtain ⟨⟨node, hn, hc⟩, hrest⟩ := List.isChain_cons_cons.1 hchain
    have hshown : next ∈ node.shown F := mem_shown_iff.2 ⟨hc, fun hf => hopen start (by simp) ⟨node, hn, hf⟩⟩
    refine Reaches.of_chain (.child hs hn hshown) hrest (fun p hp => hopen p ?_) ?_
    · rw [List.dropLast_cons_cons]
      exact List.mem_cons_of_mem _ hp
    · rwa [List.getLast?_cons_cons] at hlast

theorem reaches_iff_openPath {id : Nat} :
    Reaches tree F id ↔ ∃ root path, tree.rootId? = some root ∧ OpenPath tree F root path id := by
  refine ⟨Reaches.openPath, ?_⟩
  rintro ⟨root, path, hr, hstart, hend, hlinks, hopen⟩
  cases path with
  | nil => cases hstart
  | cons p path =>
    cases hstart
    exact Reaches.of_chain (.root hr) hlinks hopen hend

/-- Folding more opens no path. -/
theorem Reaches.anti {G : FoldedSet} (hFG : ∀ name, F.contains name = true → G.contains name = true)
    {id : Nat} (h : Reaches tree G id) : Reaches tree F id := by
  induction h with
  | root hr => exact .root hr
  | child _ hn hc ih =>
    obtain ⟨hchild, hopen⟩ := mem_shown_iff.1 hc
    exact .child ih hn (mem_shown_iff.2 ⟨hchild, fun hf => hopen ⟨hf.1, hFG _ hf.2⟩⟩)

/-- A node that is reached is reached also with its own fold changed: that hides what is below it alone. -/
theorem Reaches.of_other_folds (hd : tree.Distinct) {G : FoldedSet} {id : Nat} {node : QueueNode α}
    (hn : tree.get? id = some node) (hFG : ∀ name, name ≠ node.name → G.contains name = F.contains name)
    (h : Reaches tree F id) : Reaches tree G id := by
  have hall : ∀ i, Reaches tree F i → Reaches tree G i ∨ Reaches tree G id := by
    intro i hi
    induction hi with
    | root hr => exact Or.inl (.root hr)
    | @child p c m _ hm hc ih =>
      refine ih.elim (fun hp => ?_) Or.inr
      by_cases hname : m.name = node.name
      · exact Or.inr (id_eq_of_name_eq hd hm hn hname ▸ hp)
      · obtain ⟨hchild, hopen⟩ := mem_shown_iff.1 hc
        exact Or.inl (.child hp hm (mem_shown_iff.2 ⟨hchild, by rwa [hFG m.name hname]⟩))
  exact or_self_iff.1 (hall id h)

end QueueTree

namespace TreeLayout

open QueueTree

variable {tree : QueueTree α} {F : FoldedSet} {l l' : TreeLayout α}

/-- Every child the walk goes on with below the node at `i` has a row. -/
def Explored (tree : QueueTree α) (F : FoldedSet) (l : TreeLayout α) (i : Nat) : Prop :=
  ∀ node, tree.get? i = some node → ∀ c ∈ node.shown F, c ∈ l.ids

theorem Explored.mono {i : Nat} (h : Explored tree F l i) (hsub : l.ids ⊆ l'.ids) :
    Explored tree F l' i := fun node hn c hc => hsub (h node hn c hc)

variable [Scalar α] {parent : PlacedNode α} {children : List Nat}

/-- A run below queues that are reached only adds rows of queues that are reached. -/
theorem Descent.reaches (h : Descent tree F parent children l l')
    (hc : ∀ c ∈ children, Reaches tree F c) : ∀ i ∈ l'.ids, i ∈ l.ids ∨ Reaches tree F i := by
  induction h with
  | done => exact fun i hi => Or.inl hi
  | again _ _ ih => exact ih fun c hm => hc c (List.mem_cons_of_mem _ hm)
  | @enter parent row child rest node l below l' _ hn hrow _ _ ihbelow ihrest =>
    subst hrow
    have hchild : Reaches tree F child := hc child List.mem_cons_self
    intro i hi
    rcases ihrest (fun c hm => hc c (List.mem_cons_of_mem _ hm)) i hi with hi | hi
    · rcases ihbelow (fun c hm => .child hchild hn hm) i hi with hi | hi
      · rw [ids_addRow, List.mem_append, List.mem_singleton] at hi
        rcases hi with hi | rfl
        · exact Or.inl hi
        · exact Or.inr hchild
      · exact Or.inr hi
    · exact Or.inr hi

/-- A run leaves no child out, neither among the given ones nor below a row it adds. -/
theorem Descent.explored (h : Descent tree F parent children l l') :
    (∀ c ∈ children, c ∈ l'.ids) ∧ ∀ i ∈ l'.ids, i ∈ l.ids ∨ Explored tree F l' i := by
  induction h with
  | done => exact ⟨by simp, fun i hi => Or.inl hi⟩
  | again hv hrest ih =>
    refine ⟨fun c hc => ?_, ih.2⟩
    rcases List.mem_cons.1 hc with rfl | hc
    · exact hrest.ids_subset (visited_eq_true_iff.1 hv)
    · exact ih.1 c hc
  | @enter parent row child rest node l below l' _ hn hrow hbelow hrest ihbelow ihrest =>
    subst hrow
    have hin : child ∈ below.ids := hbelow.ids_subset (by simp [QueueNode.row])
    have hsub : below.ids ⊆ l'.ids := hrest.ids_subset
    refine ⟨fun c hc => ?_, fun i hi => ?_⟩
    · rcases List.mem_cons.1 hc with rfl | hc
      · exact hsub hin
      · exact ihrest.1 c hc
    · rcases ihrest.2 i hi with hi | hi
      · rcases ihbelow.2 i hi with hi | hi
        · rw [ids_addRow, List.mem_append, List.mem_singleton] at hi
          rcases hi with hi | rfl
          · exact Or.inl hi
          · refine Or.inr fun n hn' c hc => ?_
            cases hn.symm.trans hn'
            exact hsub (ihbelow.1 c hc)
        · exact Or.inr (hi.mono hsub)
      · exact Or.inr hi

theorem reaches_of_mem_compute (hl : tree.Linked) : ∀ i ∈ (compute tree F).ids, Reaches tree F i := by
  have h := compute_walk hl F
  generalize compute tree F = l at h
  cases h with
  | nothing => simp [ids]
  | @root id node _ hr hn hd =>
    have hroot : Reaches tree F id := .root hr
    intro i hi
    rcases hd.reaches (fun c hc => .child hroot hn hc) i hi with hi | hi
    · have : i = id := by simpa [ids, QueueNode.row] using hi
      exact this ▸ hroot
    · exact hi

theorem explored_compute (hl : tree.Linked) :
    (∀ id, tree.rootId? = some id → id ∈ (compute tree F).ids) ∧
      ∀ i ∈ (compute tree F).ids, Explored tree F (compute tree F) i := by
  have h := compute_walk hl F
  generalize compute tree F = l at h
  cases h with
  | nothing hr => simp [hr, ids]
  | @root id node _ hr hn hd =>
    have hin : id ∈ l.ids := hd.ids_subset (by simp [QueueNode.row])
    refine ⟨fun i hi => ?_, fun i hi => ?_⟩
    · cases hr.symm.trans hi
      exact hin
    · rcases hd.explored.2 i hi with hi | hi
      · have : i = id := by simpa [ids, QueueNode.row] using hi
        subst this
        intro n hn' c hc
        cases hn.symm.trans hn'
        exact hd.explored.1 c hc
      · exact hi

/-- The walk gives rows to the queues that are reached, and to no others. -/
theorem mem_ids_compute_iff (hl : tree.Linked) {id : Nat} :
    id ∈ (compute tree F).ids ↔ Reaches tree F id := by
  refine ⟨reaches_of_mem_compute hl id, fun h => ?_⟩
  induction h with
  | root hr => exact (explored_compute hl).1 _ hr
  | child _ hn hc ih => exact (explored_compute hl).2 _ ih _ hn _ hc

/-- **The visible queues are those an open path leads to, each once.** The walk without a bound has
exactly one run, which ends with this layout; and what is visible stays so with less folded. -/
theorem compute_rows_iff_openPath (records : List (QueueRecord α)) (F : FoldedSet) :
    let tree := QueueTree.build records
    let layout := compute tree F
    (∀ l, Walk tree F l ↔ l = layout) ∧
    (∀ id node, tree.get? id = some node →
      ((∃ row ∈ layout.rows, row.name = node.name) ↔
        ∃ root path, tree.rootId? = some root ∧ OpenPath tree F root path id)) ∧
    (∀ row ∈ layout.rows, ∃ node, tree.get? row.id = some node ∧ row.name = node.name) ∧
    (layout.rows.map (·.name)).Nodup ∧
    (∀ G : FoldedSet, (∀ name, F.contains name = true → G.contains name = true) →
      ∀ row ∈ (compute tree G).rows, ∃ row' ∈ layout.rows, row'.name = row.name) := by
  intro tree layout
  have hl : tree.Linked := build_linked records
  have hd : tree.Distinct := build_distinct records
  have hname : ∀ id node, tree.get? id = some node →
      ((∃ row ∈ layout.rows, row.name = node.name) ↔ Reaches tree F id) := by
    intro id node hn
    rw [← mem_ids_compute_iff hl]
    constructor
    · rintro ⟨row, hrow, hname⟩
      obtain ⟨m, hm, hrm⟩ := node_of_mem_compute hl hrow
      have hid : row.id = id := id_eq_of_name_eq hd hm hn (hrm.symm.trans hname)
      exact hid ▸ List.mem_map_of_mem hrow
    · intro hid
      obtain ⟨row, hrow, rfl⟩ := List.mem_map.1 hid
      obtain ⟨m, hm, hrm⟩ := node_of_mem_compute hl hrow
      cases hm.symm.trans hn
      exact ⟨row, hrow, hrm⟩
  refine ⟨fun l => walk_iff hl, fun id node hn => (hname id node hn).trans reaches_iff_openPath,
    fun row => node_of_mem_compute hl, compute_names_nodup hl hd, fun G hFG row hrow => ?_⟩
  obtain ⟨node, hn, hrn⟩ := node_of_mem_compute hl hrow
  have hG : Reaches tree G row.id := reaches_of_mem_compute hl row.id (List.mem_map_of_mem hrow)
  obtain ⟨row', hrow', hname'⟩ := (hname row.id node hn).2 (hG.anti hFG)
  exact ⟨row', hrow', hname'.trans hrn.symm⟩

end TreeLayout

end QueueBoard
