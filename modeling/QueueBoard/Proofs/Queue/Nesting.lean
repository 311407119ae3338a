import QueueBoard.Proofs.Queue.Preorder
/-!
# Nested queues as records and rows

`Outline` is a queue with the queues inside it. Records that list the queues of an outline in
pre-order, each with its links as names, are built into an arena with the outline's links
(`get?_build_of_tells`), and with nothing folded every queue gets the row of its record, as deep as it
is nested (`rows_of_tells`): the walk over the arena is the pre-order the records came in.
-/

namespace QueueBoard

variable {α : Type}

/-- A queue's name and the queues inside it. -/
inductive Outline where
  | queue (name : String) (inner : List Outline)

namespace Outline

/-- The queue's name. -/
def name : Outline → String
  | queue name _ => name

/-- A queue of an outline: what it is called, what it is in, what it holds, and how deep it is. -/
structure Spot where
  name : String
  parent : Option String
  children : List String
  depth : Nat
  deriving DecidableEq

mutual
/-- The queues of an outline in pre-order. -/
def spots (parent : Option String) (depth : Nat) : Outline → List Spot
  | queue name inner =>
    { name, parent, children := inner.map Outline.name, depth } :: spotsAll (some name) (depth + 1) inner

/-- The queues of outlines beside each other. -/
def spotsAll (parent : Option String) (depth : Nat) : List Outline → List Spot
  | [] => []
  | q :: rest => spots parent depth q ++ spotsAll parent depth rest
end

/-- All queues of an outline. -/
def all (q : Outline) : List Spot := q.spots none 0

/-- The records are the queues of the outline in pre-order. -/
def Tells (q : Outline) (records : List (QueueRecord α)) : Prop :=
  records.map (fun r => (r.name, r.parent, r.children)) = q.all.map fun s => (s.name, s.parent, s.children)

theorem name_mem_spots (parent : Option String) (depth : Nat) (q : Outline) :
    q.name ∈ (q.spots parent depth).map (·.name) := by
  cases q
  simp [spots, name]

theorem names_subset_spotsAll (parent : Option String) (depth : Nat) :
    ∀ qs : List Outline, qs.map Outline.name ⊆ (spotsAll parent depth qs).map (·.name)
  | [] => List.Subset.refl _
  | q :: rest => by
    rw [spotsAll, List.map_append, List.map_cons]
    refine List.cons_subset.2 ⟨List.mem_append_left _ (name_mem_spots parent depth q), ?_⟩
    exact List.subset_append_of_subset_right _ (names_subset_spotsAll parent depth rest)

/-! ## Links stay inside -/

/-- The queue is linked to others among `names` only, but for `parent` around all of them. -/
structure Spot.Inside (parent : Option String) (names : List String) (s : Spot) : Prop where
  children : ∀ c ∈ s.children, c ≠ s.name ∧ c ∈ names
  parent : s.parent = parent ∨ ∃ p ∈ names, s.parent = some p

theorem Spot.Inside.mono {parent : Option String} {names names' : List String} {s : Spot}
    (h : s.Inside parent names) (hsub : names ⊆ names') : s.Inside parent names' where
  children c hc := (h.children c hc).imp_right fun hmem => hsub hmem
  parent := h.parent.imp_right fun ⟨p, hp, he⟩ => ⟨p, hsub hp, he⟩

mutual
theorem inside_of_spots (parent : Option String) (depth : Nat) : ∀ q : Outline,
    ((q.spots parent depth).map (·.name)).Nodup →
      ∀ s ∈ q.spots parent depth, s.Inside parent ((q.spots parent depth).map (·.name))
  | queue name inner => by
    intro hnd s hs
    rw [spots, List.map_cons] at hnd ⊢
    rw [spots] at hs
    obtain ⟨hout, hinner⟩ := List.nodup_cons.1 hnd
    rcases List.mem_cons.1 hs with rfl | hs
    · refine ⟨fun c hc => ?_, Or.inl rfl⟩
      have hmem := names_subset_spotsAll (some name) (depth + 1) inner hc
      exact ⟨fun (e : c = name) => hout (e ▸ hmem), List.mem_cons_of_mem _ hmem⟩
    · have hin := (inside_of_spotsAll (some name) (depth + 1) inner hinner s hs).mono
        (List.subset_cons_self name _)
      -- around the inner queues stands this one
      exact ⟨hin.children, Or.inr (hin.parent.elim (fun e => ⟨name, List.mem_cons_self, e⟩) id)⟩

theorem inside_of_spotsAll (parent : Option String) (depth : Nat) : ∀ qs : List Outline,
    ((spotsAll parent depth qs).map (·.name)).Nodup →
      ∀ s ∈ spotsAll parent depth qs, s.Inside parent ((spotsAll parent depth qs).map (·.name))
  | [] => by simp [spotsAll]
  | q :: rest => by
    intro hnd s hs
    rw [spotsAll, List.map_append] at hnd ⊢
    rw [spotsAll] at hs
    obtain ⟨hq, hrest, -⟩ := List.nodup_append.1 hnd
    rcases List.mem_append.1 hs with hs | hs
    · exact (inside_of_spots parent depth q hq s hs).mono (List.subset_append_left _ _)
    · exact (inside_of_spotsAll parent depth rest hrest s hs).mono (List.subset_append_right _ _)
end

/-- Every link of an outline is to one of its queues. -/
theorem inside_of_all {q : Outline} (hnd : (q.all.map (·.name)).Nodup) {s : Spot} (hs : s ∈ q.all) :
    s.Inside none (q.all.map (·.name)) := inside_of_spots none 0 q hnd s hs

end Outline

namespace QueueTree

/-- The name of the node at a position. -/
def nameAt? (t : QueueTree α) (id : Nat) : Option String := (t.get? id).map (·.name)

/-- The position of a name that one of the records has. -/
def slot (records : List (QueueRecord α)) (name : String) : Nat := (position? records name).getD 0

variable {records : List (QueueRecord α)}

theorem position?_slot {name : String} (h : name ∈ records.map (·.name)) :
    position? records name = some (slot records name) := by
  obtain ⟨r, hr, hname⟩ := List.mem_map.1 h
  have hsome : (position? records name).isSome := by
    rw [position?, List.findIdx?_isSome, List.any_eq_true]
    exact ⟨r, hr, beq_iff_eq.2 hname⟩
  obtain ⟨i, hi⟩ := Option.isSome_iff_exists.1 hsome
  rw [slot, hi]
  rfl

theorem slot_eq (hnd : (records.map (·.name)).Nodup) {i : Nat} {r : QueueRecord α}
    (h : records[i]? = some r) : slot records r.name = i := by
  rw [slot, (position?_eq_some_iff hnd).2 ⟨r, h, rfl⟩]
  rfl

theorem get?_build_of_nodup (hnd : (records.map (·.name)).Nodup) {i : Nat} {r : QueueRecord α}
    (h : records[i]? = some r) : (build records).get? i = some (resolve records r) := by
  rw [get?_build, firstRecords_eq_self hnd, h]
  rfl

theorem nameAt?_slot (hnd : (records.map (·.name)).Nodup) {name : String}
    (h : name ∈ records.map (·.name)) : (build records).nameAt? (slot records name) = some name := by
  obtain ⟨r, hr, rfl⟩ := (position?_eq_some_iff hnd).1 (position?_slot h)
  rw [nameAt?, get?_build_of_nodup hnd hr]
  rfl

/-- Child names of other records all resolve. -/
theorem resolve_children {r : QueueRecord α}
    (h : ∀ c ∈ r.children, c ≠ r.name ∧ c ∈ records.map (·.name)) :
    (resolve records r).children = r.children.map (slot records) := by
  have hothers : r.children.filter (· != r.name) = r.children :=
    List.filter_eq_self.2 fun c hc => bne_iff_ne.2 (h c hc).1
  rw [resolve, hothers]
  exact List.filterMap_eq_map_iff_forall_eq_some.2 fun c hc => position?_slot (h c hc).2

theorem resolve_parent {r : QueueRecord α} (h : ∀ p, r.parent = some p → p ∈ records.map (·.name)) :
    (resolve records r).parent = r.parent.map (slot records) := by
  rw [resolve]
  cases hp : r.parent with
  | none => rfl
  | some p => exact position?_slot (h p hp)

end QueueTree

namespace Outline

open QueueTree

variable {q : Outline} {records : List (QueueRecord α)}

theorem Tells.names (h : q.Tells records) : records.map (·.name) = q.all.map (·.name) := by
  have := congrArg (List.map Prod.fst) h
  simpa [Function.comp_def] using this

theorem Tells.size (h : q.Tells records) (hnd : (q.all.map (·.name)).Nodup) :
    (build records).size = q.all.length := by
  have hlen : records.length = q.all.length := by simpa using congrArg List.length h
  rw [QueueTree.size, build, firstRecords_eq_self (h.names ▸ hnd)]
  simpa using hlen

theorem Tells.getElem? (h : q.Tells records) {i : Nat} {s : Spot} (hs : q.all[i]? = some s) :
    ∃ r, records[i]? = some r ∧ r.name = s.name ∧ r.parent = s.parent ∧ r.children = s.children := by
  have hi := congrArg (fun es => es[i]?) h
  simp only [List.getElem?_map, hs, Option.map_some, Option.map_eq_some_iff, Prod.mk.injEq] at hi
  exact hi

/-- The node of a queue has the queue's links. -/
theorem Tells.node (h : q.Tells records) (hnd : (q.all.map (·.name)).Nodup) {i : Nat} {s : Spot}
    (hs : q.all[i]? = some s) :
    ∃ node, (build records).get? i = some node ∧ node.name = s.name ∧
      node.children = s.children.map (slot records) ∧ node.parent = s.parent.map (slot records) := by
  obtain ⟨r, hr, hname, hparent, hchildren⟩ := h.getElem? hs
  have hin := inside_of_all hnd (List.mem_of_getElem? hs)
  rw [← h.names] at hin hnd
  refine ⟨_, get?_build_of_nodup hnd hr, hname, ?_, ?_⟩
  · rw [← hchildren]
    exact resolve_children fun c hc => hname ▸ hin.children c (hchildren ▸ hc)
  · rw [← hparent]
    refine resolve_parent fun p hp => ?_
    obtain hnone | ⟨p', hp', he⟩ := hin.parent
    · rw [← hparent, hp] at hnone
      cases hnone
    · rw [← hparent, hp] at he
      cases he
      exact hp'

/-- **The arena has the links of the outline**, and no others. -/
theorem Tells.get?_build (h : q.Tells records) (hnd : (q.all.map (·.name)).Nodup) {i : Nat} {s : Spot}
    (hs : q.all[i]? = some s) :
    ∃ node, (build records).get? i = some node ∧ node.name = s.name ∧
      node.children.map (build records).nameAt? = s.children.map some ∧
      node.parent.map (build records).nameAt? = s.parent.map some := by
  obtain ⟨node, hn, hname, hchildren, hparent⟩ := h.node hnd hs
  have hin := inside_of_all hnd (List.mem_of_getElem? hs)
  rw [← h.names] at hin hnd
  refine ⟨node, hn, hname, ?_, ?_⟩
  · rw [hchildren, List.map_map]
    exact List.map_congr_left fun c hc => nameAt?_slot hnd (hin.children c hc).2
  · rw [hparent, Option.map_map]
    obtain hnone | ⟨p, hp, he⟩ := hin.parent
    · rw [hnone]
      rfl
    · rw [he]
      exact congrArg some (nameAt?_slot hnd hp)

/-! ## Rows -/

/-- The node of a queue is at its name's place and has its children. -/
def Placed (tree : QueueTree α) (records : List (QueueRecord α)) (s : Spot) : Prop :=
  ∃ node, tree.get? (slot records s.name) = some node ∧ node.children = s.children.map (slot records)

/-- Where a queue is in the arena, and how deep. -/
def Spot.entry (records : List (QueueRecord α)) (s : Spot) : Nat × Nat := (slot records s.name, s.depth)

theorem shown_empty (node : QueueNode α) : node.shown {} = node.children := by
  simp [QueueNode.shown, FoldedSet.contains]

open TreeLayout in
mutual
/-- The walk over nodes that are placed like an outline is the pre-order of the outline. -/
theorem preorder_spots {tree : QueueTree α} (parent : Option String) (depth : Nat) : ∀ q : Outline,
    (∀ s ∈ q.spots parent depth, Placed tree records s) →
      Preorder tree {} depth [slot records q.name] ((q.spots parent depth).map (Spot.entry records))
  | queue name inner => by
    intro h
    rw [spots] at h ⊢
    obtain ⟨⟨node, hn, hchildren⟩, hinner⟩ := List.forall_mem_cons.1 h
    have hbelow := preorder_spotsAll (some name) (depth + 1) inner hinner
    have hshown : node.shown {} = inner.map fun q => slot records q.name := by
      rw [shown_empty, hchildren, List.map_map]
      rfl
    rw [← hshown] at hbelow
    have hlist := Preorder.cons hn hbelow (.nil depth)
    rwa [List.append_nil] at hlist

theorem preorder_spotsAll {tree : QueueTree α} (parent : Option String) (depth : Nat) : ∀ qs : List Outline,
    (∀ s ∈ spotsAll parent depth qs, Placed tree records s) →
      Preorder tree {} depth (qs.map fun q => slot records q.name)
        ((spotsAll parent depth qs).map (Spot.entry records))
  | [] => fun _ => .nil depth
  | q :: rest => by
    intro h
    rw [spotsAll] at h ⊢
    obtain ⟨hq, hrest⟩ := List.forall_mem_append.1 h
    rw [List.map_append, List.map_cons]
    exact (preorder_spots parent depth q hq).append (preorder_spotsAll parent depth rest hrest)
end

/-- The records stand where the pre-order has them. -/
theorem Tells.entries (h : q.Tells records) (hnd : (q.all.map (·.name)).Nodup) :
    q.all.map (Spot.entry records) = q.all.mapIdx fun i s => (i, s.depth) := by
  refine List.ext_getElem? fun i => ?_
  rw [List.getElem?_map, List.getElem?_mapIdx]
  cases hs : q.all[i]? with
  | none => rfl
  | some s =>
    obtain ⟨r, hr, hname, -⟩ := h.getElem? hs
    have hslot : slot records s.name = i := hname ▸ slot_eq (h.names ▸ hnd) hr
    simp [Spot.entry, hslot]

theorem Tells.rootId? (h : q.Tells records) (hnd : (q.all.map (·.name)).Nodup) (hroot : q.name = rootName) :
    (build records).rootId? = some (slot records q.name) := by
  have hmem : q.name ∈ records.map (·.name) := h.names ▸ name_mem_spots none 0 q
  rw [← h.names] at hnd
  obtain ⟨node, hn, hname⟩ := Option.map_eq_some_iff.1 (nameAt?_slot hnd hmem)
  exact (idOf?_eq_some_iff (build_distinct records)).2 ⟨node, hn, hname.trans hroot⟩

theorem Tells.placed (h : q.Tells records) (hnd : (q.all.map (·.name)).Nodup) :
    ∀ s ∈ q.all, Placed (build records) records s := by
  intro s hs
  obtain ⟨i, hi⟩ := List.getElem?_of_mem hs
  obtain ⟨r, hr, hname, -⟩ := h.getElem? hi
  obtain ⟨node, hn, -, hchildren, -⟩ := h.node hnd hi
  refine ⟨node, ?_, hchildren⟩
  rw [← hname, slot_eq (h.names ▸ hnd) hr]
  exact hn

variable [Scalar α]

theorem Tells.outline_compute (h : q.Tells records) (hnd : (q.all.map (·.name)).Nodup)
    (hroot : q.name = rootName) :
    (TreeLayout.compute (build records) {}).outline = q.all.mapIdx fun i s => (i, s.depth) := by
  rw [← h.entries hnd]
  refine (preorder_spots none 0 q (h.placed hnd)).outline_compute (build_linked records)
    (h.rootId? hnd hroot) ?_
  have hids : (q.all.map (Spot.entry records)).map Prod.fst = List.range q.all.length := by
    rw [h.entries hnd]
    exact List.ext_getElem (by simp) (by simp)
  rw [hids]
  exact List.nodup_range

/-- **With nothing folded every queue has the row of its record**, as deep as it is nested. -/
theorem Tells.rows (h : q.Tells records) (hnd : (q.all.map (·.name)).Nodup) (hroot : q.name = rootName) :
    (TreeLayout.compute (build records) {}).rows.map
        (fun row => (row.id, row.sequence, row.name, row.depth)) =
      q.all.mapIdx fun i s => (i, i, s.name, s.depth) := by
  refine List.ext_getElem? fun i => ?_
  have hi := congrArg (fun es => es[i]?) (h.outline_compute hnd hroot)
  simp only [TreeLayout.outline, List.getElem?_map, List.getElem?_mapIdx] at hi ⊢
  cases hs : q.all[i]? with
  | none =>
    rw [hs, Option.map_none, Option.map_eq_none_iff] at hi
    rw [hi]
    rfl
  | some s =>
    rw [hs, Option.map_some, Option.map_eq_some_iff] at hi
    obtain ⟨row, hrow, he⟩ := hi
    obtain ⟨hid, hdepth⟩ := Prod.mk.inj he
    obtain ⟨n, hn, hdrawn⟩ := TreeLayout.compute_faithful (build_linked records) i row hrow
    obtain ⟨node, hnode, hname, -⟩ := h.node hnd hs
    rw [hid] at hn
    cases hn.symm.trans hnode
    have hrn : row.name = s.name := (congrArg PlacedNode.name hdrawn).trans hname
    have hseq : row.sequence = i := congrArg PlacedNode.sequence hdrawn
    rw [hrow]
    simp [hid, hdepth, hrn, hseq]

end Outline

end QueueBoard
