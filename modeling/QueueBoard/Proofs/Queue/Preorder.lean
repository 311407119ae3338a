import QueueBoard.Proofs.Queue.Visible
/-!
# The walk over a forest

`Preorder` lists the subtrees of some queues depth first without looking at what has a row already.
In general the walk does look. Where no queue is listed twice it need not: a run adds the listing
(`Descent.preorder`), and a listing without repetition is what a run adds (`Preorder.descent`). What
folding does to rows can then be read off the shape of listings.
-/

namespace QueueBoard

variable {α : Type}

namespace QueueTree

/-- Every queue is listed at most once over all lists of children, and the root in none. -/
structure IsForest (t : QueueTree α) : Prop where
  listedOnce : (t.nodes.flatMap (·.children)).Nodup
  rootUnlisted : ∀ root, t.rootId? = some root → root ∉ t.nodes.flatMap (·.children)

variable {t : QueueTree α}

theorem IsForest.children_nodup (h : t.IsForest) {id : Nat} {node : QueueNode α}
    (hn : t.get? id = some node) : node.children.Nodup :=
  (List.nodup_flatMap.1 h.listedOnce).1 node (mem_nodes_of_get? hn)

/-- Only one node lists a queue. -/
theorem IsForest.lister_unique (h : t.IsForest) {p q c : Nat} (hp : t.Links p c) (hq : t.Links q c) :
    p = q := by
  obtain ⟨m, hm, hcm⟩ := hp
  obtain ⟨n, hn, hcn⟩ := hq
  have hapart := List.pairwise_iff_getElem.1 (List.nodup_flatMap.1 h.listedOnce).2
  obtain ⟨hpl, rfl⟩ := List.getElem?_eq_some_iff.1 hm
  obtain ⟨hql, rfl⟩ := List.getElem?_eq_some_iff.1 hn
  rcases Nat.lt_trichotomy p q with hlt | heq | hlt
  · exact absurd hcn (List.disjoint_left.1 (hapart p q hpl hql hlt) hcm)
  · exact heq
  · exact absurd hcm (List.disjoint_left.1 (hapart q p hql hpl hlt) hcn)

theorem IsForest.not_links_root (h : t.IsForest) {root : Nat} (hr : t.rootId? = some root) (p : Nat) :
    ¬ t.Links p root := by
  rintro ⟨node, hn, hc⟩
  exact h.rootUnlisted root hr (List.mem_flatMap.2 ⟨node, mem_nodes_of_get? hn, hc⟩)

theorem IsForest.shown_nodup (h : t.IsForest) {F : FoldedSet} {id : Nat} {node : QueueNode α}
    (hn : t.get? id = some node) : (node.shown F).Nodup := by
  unfold QueueNode.shown
  split
  · exact List.nodup_nil
  · exact h.children_nodup hn

theorem links_of_mem_shown {F : FoldedSet} {id c : Nat} {node : QueueNode α} (hn : t.get? id = some node)
    (hc : c ∈ node.shown F) : t.Links id c := ⟨node, hn, node.shown_subset F hc⟩

end QueueTree

namespace TreeLayout

open QueueTree

/-- Place in the tree and depth of every row. -/
def outline (l : TreeLayout α) : List (Nat × Nat) := l.rows.map fun row => (row.id, row.depth)

@[simp] theorem outline_addRow (l : TreeLayout α) (row : PlacedNode α) :
    (l.addRow row).outline = l.outline ++ [(row.id, row.depth)] := by simp [outline]

@[simp] theorem outline_addRepeat (l : TreeLayout α) (parent : PlacedNode α) :
    (l.addRepeat parent).outline = l.outline := rfl

theorem ids_eq_outline (l : TreeLayout α) : l.ids = l.outline.map Prod.fst := by simp [ids, outline]

/-! ## Listings -/

/-- `Preorder tree F depth children listing`: `listing` goes through the subtrees of `children` depth
first, with `children` at `depth` and nothing below a folded queue. -/
inductive Preorder (tree : QueueTree α) (F : FoldedSet) : Nat → List Nat → List (Nat × Nat) → Prop
  | nil (depth : Nat) : Preorder tree F depth [] []
  | cons {depth child : Nat} {rest : List Nat} {node : QueueNode α} {below after : List (Nat × Nat)} :
      tree.get? child = some node → Preorder tree F (depth + 1) (node.shown F) below →
      Preorder tree F depth rest after →
      Preorder tree F depth (child :: rest) ((child, depth) :: below ++ after)

variable {tree : QueueTree α} {F : FoldedSet} {depth : Nat} {children : List Nat}
  {listing : List (Nat × Nat)}

theorem Preorder.le_depth (h : Preorder tree F depth children listing) : ∀ e ∈ listing, depth ≤ e.2 := by
  induction h with
  | nil => simp
  | @cons depth child rest node below after hn _ _ ihbelow ihafter =>
    intro e he
    rcases List.mem_append.1 he with he | he
    · rcases List.mem_cons.1 he with rfl | he
      · exact Nat.le_refl depth
      · have := ihbelow e he
        omega
    · exact ihafter e he

theorem Preorder.append {child : Nat} {rest : List Nat} {after : List (Nat × Nat)}
    (h : Preorder tree F depth [child] listing) (hrest : Preorder tree F depth rest after) :
    Preorder tree F depth (child :: rest) (listing ++ after) := by
  cases h with
  | cons hn hbelow hnil =>
    cases hnil
    rw [List.append_nil]
    exact .cons hn hbelow hrest

/-- A listing starts at its own depth, so it ends what is deeper and stands before it. -/
theorem Preorder.head_depth (h : Preorder tree F depth children listing) :
    ∀ e ∈ listing.head?, e.2 = depth := by
  cases h with
  | nil => simp
  | cons => simp

variable [Scalar α] {parent : PlacedNode α} {l l' : TreeLayout α}

@[simp] theorem outline_addConnector (parent child : PlacedNode α) :
    (l.addConnector parent child).outline = l.outline := rfl

/-- **A listing without repetition is what a run adds.** -/
theorem Preorder.descent (h : Preorder tree F depth children listing) :
    ∀ (parent : PlacedNode α) (l : TreeLayout α), depth = parent.depth + 1 →
      (l.ids ++ listing.map Prod.fst).Nodup →
      ∃ l', Descent tree F parent children l l' ∧ l'.outline = l.outline ++ listing := by
  induction h with
  | nil => exact fun parent l _ _ => ⟨l, .done parent l, by simp⟩
  | @cons depth child rest node below after hn _ _ ihbelow ihafter =>
    intro parent l hdepth hnd
    subst hdepth
    have hv : l.visited child = false := by
      refine visited_eq_false_iff.2 fun hmem => ?_
      exact (List.nodup_append.1 hnd).2.2 child hmem child (by simp) rfl
    let row := node.row F child (parent.depth + 1) l.rows.length
    have hnd' : ((l.addRow row).ids ++ below.map Prod.fst ++ after.map Prod.fst).Nodup := by
      simpa [row, QueueNode.row] using hnd
    obtain ⟨m, hm, hmout⟩ := ihbelow row (l.addRow row) rfl (List.nodup_append.1 hnd').1
    have hids : m.ids = (l.addRow row).ids ++ below.map Prod.fst := by
      rw [ids_eq_outline, hmout, List.map_append, ← ids_eq_outline]
    obtain ⟨l', hl', hout⟩ := ihafter parent (m.addConnector parent row) rfl
      (by rw [show (m.addConnector parent row).ids = m.ids from rfl, hids]; exact hnd')
    refine ⟨l', .enter hv hn rfl hm hl', ?_⟩
    rw [hout, outline_addConnector, hmout, outline_addRow]
    simp [row, QueueNode.row]

/-! ## Runs over a forest -/

/-- Rows come with the rows of the nodes that list them. -/
def Parented (tree : QueueTree α) (l : TreeLayout α) : Prop :=
  ∀ p c, tree.Links p c → c ∈ l.ids → p ∈ l.ids

/-- What a run adds is among the given queues or listed by something it adds. -/
theorem Descent.new_ids (h : Descent tree F parent children l l') :
    ∀ i ∈ l'.ids, i ∉ l.ids → i ∈ children ∨ ∃ p, p ∉ l.ids ∧ tree.Links p i := by
  induction h with
  | done => exact fun i hi hout => absurd hi hout
  | again _ _ ih =>
    intro i hi hout
    exact (ih i hi hout).imp (List.mem_cons_of_mem _) id
  | @enter parent row child rest node l below l' hv hn hrow hbelow _ ihbelow ihrest =>
    subst hrow
    have hchild : child ∉ l.ids := visited_eq_false_iff.1 hv
    have hsub : l.ids ⊆ below.ids := fun j hj => hbelow.ids_subset (by simp [hj])
    intro i hi hout
    by_cases hb : i ∈ below.ids
    · by_cases hic : i = child
      · exact Or.inl (hic ▸ List.mem_cons_self)
      · rcases ihbelow i hb (by simp [QueueNode.row, hout, hic]) with hs | ⟨p, hp, hlink⟩
        · exact Or.inr ⟨child, hchild, links_of_mem_shown hn hs⟩
        · exact Or.inr ⟨p, fun hpl => hp (by simp [hpl]), hlink⟩
    · rcases ihrest i hi hb with hr | ⟨p, hp, hlink⟩
      · exact Or.inl (List.mem_cons_of_mem _ hr)
      · exact Or.inr ⟨p, fun hpl => hp (hsub hpl), hlink⟩

/-- **Over a forest a run adds the listing**: below a row it never comes to a queue that has one. -/
theorem Descent.preorder (hf : tree.IsForest) (h : Descent tree F parent children l l') :
    Parented tree l → parent.id ∈ l.ids → (∀ c ∈ children, tree.Links parent.id c ∧ c ∉ l.ids) →
      children.Nodup →
      Parented tree l' ∧ ∃ listing, Preorder tree F (parent.depth + 1) children listing ∧
        l'.outline = l.outline ++ listing := by
  induction h with
  | done parent l => exact fun hp _ _ _ => ⟨hp, [], .nil _, by simp⟩
  | again hv _ _ =>
    intro _ _ hcs _
    exact absurd (visited_eq_true_iff.1 hv) (hcs _ List.mem_cons_self).2
  | @enter parent row child rest node l below l' hv hn hrow hbelow _ ihbelow ihrest =>
    subst hrow
    intro hp hpar hcs hnd
    obtain ⟨hchild, hrestnd⟩ := List.nodup_cons.1 hnd
    obtain ⟨hlink, hout⟩ := hcs child List.mem_cons_self
    -- the new row comes with its parent's, and nothing it lists has a row yet
    have hp' : Parented tree (l.addRow (node.row F child (parent.depth + 1) l.rows.length)) := by
      intro p c hpc hc
      rw [ids_addRow, List.mem_append, List.mem_singleton] at hc
      rcases hc with hc | rfl
      · simp [hp p c hpc hc]
      · simp [hf.lister_unique hpc hlink, hpar]
    have hshown : ∀ c ∈ node.shown F, tree.Links child c ∧
        c ∉ (l.addRow (node.row F child (parent.depth + 1) l.rows.length)).ids := by
      intro c hc
      have hcl := links_of_mem_shown hn hc
      refine ⟨hcl, fun hmem => ?_⟩
      rw [ids_addRow, List.mem_append, List.mem_singleton] at hmem
      rcases hmem with hmem | rfl
      · exact hout (hp child c hcl hmem)
      · exact hout (hf.lister_unique hlink hcl ▸ hpar)
    obtain ⟨hpbelow, low, hlow, hlowout⟩ := ihbelow hp' (by simp [QueueNode.row]) hshown (hf.shown_nodup hn)
    -- what was added has another parent than the rest
    have hsub : l.ids ⊆ below.ids := fun j hj => hbelow.ids_subset (by simp [hj])
    have hrest : ∀ c ∈ rest, tree.Links parent.id c ∧
        c ∉ (below.addConnector parent (node.row F child (parent.depth + 1) l.rows.length)).ids := by
      intro c hc
      obtain ⟨hcl, hcout⟩ := hcs c (List.mem_cons_of_mem _ hc)
      refine ⟨hcl, fun hmem => ?_⟩
      have hne : c ≠ child := fun e => hchild (e ▸ hc)
      rcases hbelow.new_ids c hmem (by simp [QueueNode.row, hcout, hne]) with hs | ⟨q, hq, hql⟩
      · exact hout (hf.lister_unique hcl (links_of_mem_shown hn hs) ▸ hpar)
      · exact hq (by simp [hf.lister_unique hql hcl, hpar])
    obtain ⟨hpl', more, hmore, hmoreout⟩ := ihrest hpbelow (hsub hpar) hrest hrestnd
    refine ⟨hpl', _, .cons hn hlow hmore, ?_⟩
    rw [hmoreout, outline_addConnector, hlowout, outline_addRow]
    simp [QueueNode.row]

/-- **Over a forest the rows are the listing of the root.** -/
theorem compute_preorder (hl : tree.Linked) (hf : tree.IsForest) {root : Nat}
    (hr : tree.rootId? = some root) :
    Preorder tree F 0 [root] (compute tree F).outline := by
  have h := compute_walk hl F
  generalize compute tree F = l at h
  cases h with
  | nothing hr' => rw [hr] at hr'; cases hr'
  | @root _ node _ hr' hn hd =>
    cases hr.symm.trans hr'
    have hids : (addRow {} (node.row F root 0 0)).ids = [root] := rfl
    have hp : Parented tree (addRow {} (node.row F root 0 0)) := by
      intro p c hpc hc
      rw [hids, List.mem_singleton] at hc
      exact absurd (hc ▸ hpc) (hf.not_links_root hr p)
    have hshown : ∀ c ∈ node.shown F,
        tree.Links root c ∧ c ∉ (addRow {} (node.row F root 0 0)).ids := by
      intro c hc
      have hcl := links_of_mem_shown hn hc
      refine ⟨hcl, fun hmem => ?_⟩
      rw [hids, List.mem_singleton] at hmem
      exact hf.not_links_root hr root (hmem ▸ hcl)
    obtain ⟨-, low, hlow, hout⟩ := hd.preorder hf hp (by simp [QueueNode.row]) hshown (hf.shown_nodup hn)
    rw [hout]
    simpa [outline, QueueNode.row] using Preorder.cons hn hlow (.nil 0)

/-- A listing of the root without repetition is where the rows are. -/
theorem Preorder.outline_compute {root : Nat} (hl : tree.Linked) (hr : tree.rootId? = some root)
    (h : Preorder tree F 0 [root] listing) (hnd : (listing.map Prod.fst).Nodup) :
    (compute tree F).outline = listing := by
  cases h with
  | @cons _ _ _ node below after hn hbelow hafter =>
    cases hafter
    let row : PlacedNode α := node.row F root 0 0
    obtain ⟨l', hl', hout⟩ := hbelow.descent row (addRow {} row) rfl
      (by simpa [row, ids, QueueNode.row] using hnd)
    rw [(walk_iff hl).1 (.root hr hn hl')] at hout
    rw [hout]
    simp [outline, row, QueueNode.row]

end TreeLayout

end QueueBoard
