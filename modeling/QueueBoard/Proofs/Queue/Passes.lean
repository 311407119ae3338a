import QueueBoard.Proofs.Queue.Building
/-!
# Building in two passes

The tree as it is put together: a first pass gives every new name the next position and enters it in a map, a
second one looks the links up there. The map and the nodes stay in step whatever is passed over
(`InStep.foldl_enter`), so the arena is the tree (`assemble_nodes`, `assemble_names`), and its own: every position
in it is that of a node (`build_arena`).
-/

namespace QueueBoard.QueueTree

variable {α : Type}

/-- A queue with its own position and those of its links. -/
structure Entry (α : Type) where
  id : Nat
  record : QueueRecord α
  children : List Nat := []
  parent : Option Nat := none

/-- Queues in the order of their positions, and a map from their names to these. -/
structure Arena (α : Type) where
  nodes : List (Entry α) := []
  byName : Std.HashMap String Nat := {}
  root : Option Nat := none

namespace Arena

/-- The record of a new name gets the next position; any other is passed over. -/
def enter (a : Arena α) (r : QueueRecord α) : Arena α :=
  if a.byName.contains r.name then a
  else
    { a with
      nodes := a.nodes ++ [{ id := a.nodes.length, record := r }]
      byName := a.byName.insert r.name a.nodes.length }

/-- A queue with the links that its record declares, as far as the map has them. -/
def link (byName : Std.HashMap String Nat) (e : Entry α) : Entry α :=
  { e with
    children := e.record.children.filterMap fun c => byName[c]?.filter (· ≠ e.id)
    parent := e.record.parent.bind (byName[·]?) }

/-- All records entered, then all links looked up. -/
def assemble (records : List (QueueRecord α)) : Arena α :=
  let a := records.foldl enter {}
  { a with nodes := a.nodes.map (link a.byName), root := a.byName[rootName]? }

/-- The name of the queue at a position. -/
def nameAt? (a : Arena α) (i : Nat) : Option String := a.nodes[i]?.map (·.record.name)

/-! ## The first pass -/

/-- The arena has entered these records, each at its place among them. -/
structure InStep (a : Arena α) (entered : List (QueueRecord α)) : Prop where
  nodes : a.nodes = entered.mapIdx fun i r => { id := i, record := r }
  names : ∀ name, a.byName[name]? = position? entered name

variable {a : Arena α} {entered : List (QueueRecord α)}

theorem position?_concat (entered : List (QueueRecord α)) (r : QueueRecord α) (name : String) :
    position? (entered ++ [r]) name =
      (position? entered name).or (if r.name = name then some entered.length else none) := by
  rw [position?, List.findIdx?_append]
  by_cases h : r.name = name <;> simp [position?, h]

theorem InStep.contains (h : InStep a entered) (name : String) :
    a.byName.contains name = true ↔ name ∈ entered.map (·.name) := by
  rw [Std.HashMap.contains_eq_isSome_getElem?, h.names, position?, List.findIdx?_isSome, List.any_eq_true]
  simp

/-- A record of a new name keeps the map and the nodes in step. -/
theorem InStep.enter (h : InStep a entered) {r : QueueRecord α} (hnew : r.name ∉ entered.map (·.name)) :
    InStep (a.enter r) (entered ++ [r]) := by
  have hlength : a.nodes.length = entered.length := by rw [h.nodes, List.length_mapIdx]
  have habsent : position? entered r.name = none := by
    rw [← h.names]
    exact Std.HashMap.getElem?_eq_none_of_contains_eq_false
      (Bool.eq_false_iff.2 fun hin => hnew ((h.contains r.name).1 hin))
  rw [Arena.enter, if_neg fun hin => hnew ((h.contains r.name).1 hin)]
  refine ⟨?_, fun name => ?_⟩
  · rw [h.nodes, List.mapIdx_append, List.length_mapIdx, List.mapIdx_singleton, Nat.zero_add]
  · rw [Std.HashMap.getElem?_insert, position?_concat, hlength, h.names]
    by_cases hname : r.name = name
    · subst hname
      simp [habsent]
    · simp [hname]

/-- The pass keeps them in step: what is entered are the first records of their names. -/
theorem InStep.foldl_enter (h : InStep a entered) {seen : List String}
    (hseen : ∀ name, name ∈ seen ↔ name ∈ entered.map (·.name)) (records : List (QueueRecord α)) :
    InStep (records.foldl Arena.enter a) (entered ++ firstRecords.go seen records) := by
  induction records generalizing a entered seen with
  | nil => simpa [firstRecords.go] using h
  | cons r rest ih =>
    rw [List.foldl_cons, firstRecords.go]
    by_cases hold : r.name ∈ seen
    · rw [if_pos (by simpa using hold), Arena.enter, if_pos ((h.contains r.name).2 ((hseen r.name).1 hold))]
      exact ih h hseen
    · rw [if_neg (by simpa using hold), List.append_cons]
      refine ih (h.enter fun hin => hold ((hseen r.name).2 hin)) fun name => ?_
      rw [List.mem_cons, hseen, List.map_append, List.mem_append, List.map_singleton, List.mem_singleton, or_comm]

theorem inStep_records (records : List (QueueRecord α)) :
    InStep (records.foldl enter {}) (firstRecords records) := by
  have hempty : InStep ({} : Arena α) [] := ⟨rfl, fun _ => Std.HashMap.getElem?_empty⟩
  exact hempty.foldl_enter (by simp) records

/-! ## The second pass -/

/-- A node of a tree with its position. -/
def Entry.ofNode (i : Nat) (node : QueueNode α) : Entry α := ⟨i, node.record, node.children, node.parent⟩

/-- Passing over the queue's own position is passing over its name. -/
theorem filter_position? (hd : (entered.map (·.name)).Nodup) {i : Nat} {r : QueueRecord α}
    (hr : entered[i]? = some r) (name : String) :
    (position? entered name).filter (· ≠ i) = if name != r.name then position? entered name else none := by
  cases hp : position? entered name with
  | none => simp
  | some j =>
    have hown : j = i ↔ name = r.name := by
      obtain ⟨s, hs, rfl⟩ := (position?_eq_some_iff hd).1 hp
      refine ⟨?_, fun he => ?_⟩
      · rintro rfl
        rw [Option.some.inj (hs.symm.trans hr)]
      · exact Option.some.inj (hp.symm.trans ((position?_eq_some_iff hd).2 ⟨r, hr, he.symm⟩))
    simp [Option.filter, hown]

theorem InStep.link (h : InStep a entered) (hd : (entered.map (·.name)).Nodup) {i : Nat} {r : QueueRecord α}
    (hr : entered[i]? = some r) :
    Arena.link a.byName { id := i, record := r } = Entry.ofNode i (resolve entered r) := by
  simp only [Arena.link, Entry.ofNode, resolve, h.names, filter_position? hd hr, List.filterMap_filter]

/-- **The arena holds the nodes of the tree, in their order.** -/
theorem getElem?_assemble (records : List (QueueRecord α)) (i : Nat) :
    (assemble records).nodes[i]? = ((build records).get? i).map (Entry.ofNode i) := by
  have hstep := inStep_records records
  have hnodes : (assemble records).nodes =
      ((firstRecords records).mapIdx fun i r => { id := i, record := r }).map
        (Arena.link (records.foldl enter {}).byName) := by rw [← hstep.nodes]; rfl
  rw [hnodes, List.getElem?_map, List.getElem?_mapIdx, get?_build, Option.map_map, Option.map_map]
  cases hr : (firstRecords records)[i]? with
  | none => rfl
  | some r => exact congrArg some (hstep.link (firstRecords_nodup records) hr)

/-- The map finds what the tree finds. -/
theorem getElem?_byName (records : List (QueueRecord α)) (name : String) :
    (assemble records).byName[name]? = (build records).idOf? name := by
  have hfind : (build records).idOf? name = position? (firstRecords records) name := by
    rw [idOf?, build, List.findIdx?_map]
    rfl
  rw [hfind]
  exact (inStep_records records).names name

theorem nodes_assemble (records : List (QueueRecord α)) :
    (assemble records).nodes = (build records).nodes.mapIdx Entry.ofNode := by
  refine List.ext_getElem? fun i => ?_
  rw [getElem?_assemble, List.getElem?_mapIdx]
  rfl

theorem nameAt?_assemble (records : List (QueueRecord α)) :
    (assemble records).nameAt? = (build records).nameAt? := by
  funext i
  rw [nameAt?, getElem?_assemble, Option.map_map]
  rfl

/-! ## The whole arena -/

/-- What an arena holds in terms of the records it was made of. -/
structure Consistent (a : Arena α) (records : List (QueueRecord α)) : Prop where
  names : a.nodes.map (·.record.name) = (records.map (·.name)).eraseDups
  firsts : ∀ e ∈ a.nodes, records.find? (·.name == e.record.name) = some e.record
  ids : ∀ (i : Nat) (e : Entry α), a.nodes[i]? = some e → e.id = i
  lookups : ∀ (name : String) (i : Nat), a.byName[name]? = some i ↔ a.nameAt? i = some name
  children : ∀ e ∈ a.nodes, e.children.map a.nameAt? = (declared records e.record).map some
  parents : ∀ e ∈ a.nodes, ∀ i, e.parent = some i ↔ ∃ p, e.record.parent = some p ∧ a.nameAt? i = some p
  root : ∀ i, a.root = some i ↔ a.nameAt? i = some rootName
  /-- Every position that is stored is that of a node. -/
  links : ∀ e ∈ a.nodes, (∀ c ∈ e.children, c < a.nodes.length) ∧ ∀ p, e.parent = some p → p < a.nodes.length
  entries : (∀ (name : String) (i : Nat), a.byName[name]? = some i → i < a.nodes.length) ∧
    ∀ i, a.root = some i → i < a.nodes.length

/-- The arena is what a tree consists of, and what is looked up in the tree is there. -/
structure Stores (a : Arena α) (tree : QueueTree α) : Prop where
  nodes : a.nodes = tree.nodes.mapIdx Entry.ofNode
  idOf : ∀ name : String, tree.idOf? name = a.byName[name]?
  rootId : tree.rootId? = a.root
  byName : ∀ name : String, tree.byName? name = a.byName[name]?.bind tree.get?
  root : tree.root? = a.root.bind tree.get?
  children : ∀ node ∈ tree.nodes, (tree.childrenOf node).map some = node.children.map tree.get?
  found : ∀ name node, tree.byName? name = some node ↔ node ∈ tree.nodes ∧ node.name = name

theorem lt_of_nameAt? {i : Nat} {name : String} (h : a.nameAt? i = some name) : i < a.nodes.length := by
  obtain ⟨e, he, -⟩ := Option.map_eq_some_iff.1 h
  exact (List.getElem?_eq_some_iff.1 he).1

theorem stores_assemble (records : List (QueueRecord α)) : Stores (assemble records) (build records) := by
  have hname : ∀ name, (build records).byName? name = ((build records).idOf? name).bind (build records).get? :=
    fun name => List.find?_eq_bind_findIdx?_getElem?
  refine ⟨nodes_assemble records, fun name => (getElem?_byName records name).symm,
    (getElem?_byName records rootName).symm, fun name => ?_, ?_, fun node => childrenOf_eq (build_linked records),
    fun name node => byName?_eq_some_iff (build_distinct records)⟩
  · rw [getElem?_byName, hname]
  · rw [show (assemble records).root = _ from getElem?_byName records rootName]
    exact hname rootName

theorem consistent_assemble (records : List (QueueRecord α)) : Consistent (assemble records) records := by
  have hentry : ∀ e ∈ (assemble records).nodes, ∃ node ∈ (build records).nodes, ∃ i, e = Entry.ofNode i node := by
    intro e he
    obtain ⟨i, hi⟩ := List.getElem?_of_mem he
    rw [getElem?_assemble, Option.map_eq_some_iff] at hi
    obtain ⟨node, hn, rfl⟩ := hi
    exact ⟨node, mem_nodes_of_get? hn, i, rfl⟩
  have hlookups : ∀ (name : String) (i : Nat), (assemble records).byName[name]? = some i ↔
      (assemble records).nameAt? i = some name := by
    intro name i
    rw [getElem?_byName, idOf?_eq_some_iff (build_distinct records), nameAt?_assemble]
    exact Option.map_eq_some_iff.symm
  have hparents : ∀ e ∈ (assemble records).nodes, ∀ i, e.parent = some i ↔
      ∃ p, e.record.parent = some p ∧ (assemble records).nameAt? i = some p := by
    intro e he i
    obtain ⟨node, hnode, j, rfl⟩ := hentry e he
    rw [nameAt?_assemble]
    exact parent_eq_some_iff hnode
  have hlength : (assemble records).nodes.length = (build records).size := by
    rw [nodes_assemble, List.length_mapIdx, size]
  refine ⟨?_, fun e he => ?_, fun i e hi => ?_, hlookups, fun e he => ?_, hparents, hlookups rootName,
    fun e he => ⟨?_, fun p hp => ?_⟩, fun name i hi => lt_of_nameAt? ((hlookups name i).1 hi),
    fun i hi => lt_of_nameAt? ((hlookups rootName i).1 hi)⟩
  · refine List.ext_getElem? fun i => ?_
    rw [List.getElem?_map, getElem?_assemble, ← names_build, List.getElem?_map, Option.map_map]
    rfl
  · obtain ⟨node, hnode, j, rfl⟩ := hentry e he
    exact find?_of_mem_build hnode
  · rw [getElem?_assemble, Option.map_eq_some_iff] at hi
    obtain ⟨node, -, rfl⟩ := hi
    rfl
  · obtain ⟨node, hnode, j, rfl⟩ := hentry e he
    rw [nameAt?_assemble]
    exact nameAt?_children hnode
  · obtain ⟨node, hnode, j, rfl⟩ := hentry e he
    rw [hlength]
    exact build_linked records node hnode
  · obtain ⟨name, -, hname⟩ := (hparents e he p).1 hp
    exact lt_of_nameAt? hname

end Arena

/-- **Building keeps the arena consistent.** After the two passes the queues are the names of the records in the
order in which they first occur, each with its first record and its own position. The map finds these names and no
other, each where it is. The children are the declared ones, in their order, but for the queue itself and for names
of no queue; the parent is the declared one if there is such a queue; the root is the queue of that name. Every
position that is stored is that of a queue. And this arena is the tree of the records: what is looked up there by a
name or along a link is there. -/
theorem build_arena (records : List (QueueRecord α)) :
    (Arena.assemble records).Consistent records ∧ (Arena.assemble records).Stores (build records) :=
  ⟨Arena.consistent_assemble records, Arena.stores_assemble records⟩

end QueueBoard.QueueTree
