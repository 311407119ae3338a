import QueueBoard.Proofs.Queue.Nesting
/-!
# Built trees

What a built tree is in terms of its records alone: a node for every name, where the name is told first
(`names_build`) and with the record that tells it (`find?_of_mem_build`); and links that are the declared ones
without the names of no queue (`nameAt?_children`, `parent_eq_some_iff`).
-/

namespace QueueBoard.QueueTree

variable {α : Type} {records : List (QueueRecord α)}

/-! ## Records that count -/

/-- With some names seen already, the names that count are the other ones, where they occur first. -/
theorem names_firstRecords_go (records : List (QueueRecord α)) (seen : List String) :
    (firstRecords.go seen records).map (·.name) =
      ((records.map (·.name)).filter fun name => name ∉ seen).eraseDups := by
  induction records generalizing seen with
  | nil => simp [firstRecords.go]
  | cons r rest ih =>
    rw [firstRecords.go, List.map_cons]
    by_cases hs : r.name ∈ seen
    · rw [if_pos (by simpa using hs), ih, List.filter_cons_of_neg (by simpa using hs)]
    · rw [if_neg (by simpa using hs), List.map_cons, ih, List.filter_cons_of_pos (by simpa using hs),
        List.eraseDups_cons, List.filter_filter]
      simp [Bool.beq_eq_decide_eq]

theorem names_firstRecords (records : List (QueueRecord α)) :
    (firstRecords records).map (·.name) = (records.map (·.name)).eraseDups := by
  rw [firstRecords, names_firstRecords_go]
  simp

/-- A record that counts is the first of its name. -/
theorem find?_of_mem_firstRecords_go {seen : List String} {r : QueueRecord α}
    (h : r ∈ firstRecords.go seen records) : records.find? (·.name == r.name) = some r := by
  induction records generalizing seen with
  | nil => simp [firstRecords.go] at h
  | cons s rest ih =>
    rw [firstRecords.go] at h
    split at h
    · -- `s` is passed over for its name, which `r` does not have
      rename_i hs
      have hne : s.name ≠ r.name := fun e => mem_firstRecords_go h (e ▸ List.contains_iff_mem.1 hs)
      rw [List.find?_cons_of_neg (by simpa using hne)]
      exact ih h
    · rcases List.mem_cons.1 h with rfl | h
      · exact List.find?_cons_of_pos (by simp)
      · have hne : s.name ≠ r.name := fun e => mem_firstRecords_go h (by simp [e])
        rw [List.find?_cons_of_neg (by simpa using hne)]
        exact ih h

theorem names_build (records : List (QueueRecord α)) :
    (build records).nodes.map (·.name) = (records.map (·.name)).eraseDups := by
  rw [← names_firstRecords, show (build records).nodes = (firstRecords records).map _ from rfl, List.map_map]
  rfl

theorem find?_of_mem_build {node : QueueNode α} (h : node ∈ (build records).nodes) :
    records.find? (·.name == node.name) = some node.record := by
  obtain ⟨r, hr, rfl⟩ := List.mem_map.1 h
  exact find?_of_mem_firstRecords_go hr

theorem mem_names_firstRecords {name : String} :
    name ∈ (firstRecords records).map (·.name) ↔ name ∈ records.map (·.name) := by
  rw [names_firstRecords, List.mem_eraseDups]

/-! ## Names that are looked up -/

theorem byName?_eq_some_iff {t : QueueTree α} (hd : t.Distinct) {name : String} {node : QueueNode α} :
    t.byName? name = some node ↔ node ∈ t.nodes ∧ node.name = name := by
  constructor
  · intro h
    exact ⟨List.mem_of_find?_eq_some h, by simpa using List.find?_some h⟩
  · rintro ⟨hnode, rfl⟩
    obtain ⟨i, hi⟩ := List.getElem?_of_mem hnode
    exact byName?_of_get? hd hi

/-- In a built tree a name's position is that of its record. -/
theorem nameAt?_build (i : Nat) :
    (build records).nameAt? i = (firstRecords records)[i]?.map (·.name) := by
  rw [nameAt?, get?_build, Option.map_map]
  rfl

theorem position?_firstRecords_eq_some_iff {name : String} {i : Nat} :
    position? (firstRecords records) name = some i ↔ (build records).nameAt? i = some name := by
  rw [position?_eq_some_iff (firstRecords_nodup records), nameAt?_build, Option.map_eq_some_iff]

/-- A name of a queue resolves to where the queue is, any other one to nothing. -/
theorem position?_firstRecords_name (name : String) :
    (position? (firstRecords records) name).map (build records).nameAt? =
      if name ∈ records.map (·.name) then some (some name) else none := by
  cases hp : position? (firstRecords records) name with
  | none =>
    have hout : name ∉ records.map (·.name) := by
      intro hmem
      rw [position?_slot (mem_names_firstRecords.2 hmem)] at hp
      cases hp
    rw [if_neg hout]
    rfl
  | some i =>
    have hname := position?_firstRecords_eq_some_iff.1 hp
    have hmem : name ∈ records.map (·.name) := by
      obtain ⟨r, hr, he⟩ := (position?_eq_some_iff (firstRecords_nodup records)).1 hp
      exact mem_names_firstRecords.1 (he ▸ List.mem_map_of_mem (List.mem_of_getElem? hr))
    rw [if_pos hmem, Option.map_some, hname]

/-! ## Links -/

/-- The children a record declares that are other queues. -/
def declared (records : List (QueueRecord α)) (r : QueueRecord α) : List String :=
  r.children.filter fun c => c ≠ r.name ∧ c ∈ records.map (·.name)

theorem nameAt?_children {node : QueueNode α} (h : node ∈ (build records).nodes) :
    node.children.map (build records).nameAt? = (declared records node.record).map some := by
  obtain ⟨r, -, rfl⟩ := List.mem_map.1 h
  simp only [resolve, List.map_filterMap, position?_firstRecords_name, declared]
  induction r.children with
  | nil => rfl
  | cons c rest ih =>
    by_cases hne : c = r.name
    · simpa [hne] using ih
    · by_cases hmem : c ∈ records.map (·.name) <;> simp_all

theorem parent_eq_some_iff {node : QueueNode α} (h : node ∈ (build records).nodes) {i : Nat} :
    node.parent = some i ↔ ∃ p, node.record.parent = some p ∧ (build records).nameAt? i = some p := by
  obtain ⟨r, -, rfl⟩ := List.mem_map.1 h
  simp only [resolve, Option.bind_eq_some_iff, position?_firstRecords_eq_some_iff]

/-- No child link is lost when it is followed. -/
theorem childrenOf_eq {t : QueueTree α} (hl : t.Linked) {node : QueueNode α} (h : node ∈ t.nodes) :
    (t.childrenOf node).map some = node.children.map t.get? := by
  have hfound : ∀ c ∈ node.children, (t.get? c).map some = some (t.get? c) := by
    intro c hc
    obtain ⟨child, hchild⟩ := get?_of_lt (hl node h c hc)
    rw [hchild, Option.map_some]
  rw [childrenOf, List.map_filterMap]
  exact List.filterMap_eq_map_iff_forall_eq_some.2 hfound

end QueueBoard.QueueTree
