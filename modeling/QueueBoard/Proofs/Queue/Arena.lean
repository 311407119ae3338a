import QueueBoard.Queue.Tree
import Mathlib.Data.List.Nodup
/-!
# The arena of a queue tree

What every built tree keeps: no two nodes have a name in common (`build_distinct`), a name resolves to
the one place where its node is (`idOf?_eq_some_iff`), and links only point to nodes (`build_linked`).
-/

namespace QueueBoard.QueueTree

variable {α : Type}

/-- No two nodes have a name in common. -/
def Distinct (t : QueueTree α) : Prop := (t.nodes.map (·.name)).Nodup

/-- Child links only point to nodes. -/
def Linked (t : QueueTree α) : Prop := ∀ node ∈ t.nodes, ∀ c ∈ node.children, c < t.size

/-! ## The first record of every name -/

theorem mem_firstRecords_go {records : List (QueueRecord α)} {seen : List String} {r : QueueRecord α}
    (h : r ∈ firstRecords.go seen records) : r.name ∉ seen := by
  induction records generalizing seen with
  | nil => simp [firstRecords.go] at h
  | cons s rest ih =>
    rw [firstRecords.go] at h
    split at h
    · exact ih h
    · rename_i hs
      rcases List.mem_cons.1 h with rfl | h
      · simpa using hs
      · exact fun hr => ih h (List.mem_cons_of_mem _ hr)

theorem firstRecords_go_nodup (records : List (QueueRecord α)) (seen : List String) :
    ((firstRecords.go seen records).map (·.name)).Nodup := by
  induction records generalizing seen with
  | nil => simp [firstRecords.go]
  | cons s rest ih =>
    rw [firstRecords.go]
    split
    · exact ih seen
    · refine List.nodup_cons.2 ⟨fun hs => ?_, ih _⟩
      obtain ⟨r, hr, hname⟩ := List.mem_map.1 hs
      exact mem_firstRecords_go hr (by simp [hname])

theorem firstRecords_nodup (records : List (QueueRecord α)) :
    ((firstRecords records).map (·.name)).Nodup := firstRecords_go_nodup records []

theorem firstRecords_go_eq_self {records : List (QueueRecord α)} {seen : List String}
    (hd : (records.map (·.name)).Nodup) (hs : ∀ r ∈ records, r.name ∉ seen) :
    firstRecords.go seen records = records := by
  induction records generalizing seen with
  | nil => rfl
  | cons r rest ih =>
    obtain ⟨hr, hrest⟩ := List.nodup_cons.1 hd
    have hout : seen.contains r.name = false := by simpa using hs r List.mem_cons_self
    rw [firstRecords.go, hout]
    refine congrArg (r :: ·) (ih hrest fun s hsm hmem => ?_)
    rcases List.mem_cons.1 hmem with he | he
    · exact hr (List.mem_map.2 ⟨s, hsm, he⟩)
    · exact hs s (List.mem_cons_of_mem _ hsm) he

/-- Records without a repeated name all count. -/
theorem firstRecords_eq_self {records : List (QueueRecord α)} (hd : (records.map (·.name)).Nodup) :
    firstRecords records = records := firstRecords_go_eq_self hd (by simp)

/-! ## Names and places -/

/-- In a list without a repeated key, the first place of a key is its only one. -/
theorem findIdx?_key_eq_some_iff {β : Type} {key : β → String} {xs : List β} (hd : (xs.map key).Nodup)
    {name : String} {i : Nat} :
    xs.findIdx? (key · == name) = some i ↔ ∃ x, xs[i]? = some x ∧ key x = name := by
  rw [List.findIdx?_eq_some_iff_getElem]
  constructor
  · rintro ⟨hi, hkey, -⟩
    exact ⟨xs[i], List.getElem?_eq_getElem hi, by simpa using hkey⟩
  · rintro ⟨x, hx, rfl⟩
    obtain ⟨hi, rfl⟩ := List.getElem?_eq_some_iff.1 hx
    refine ⟨hi, by simp, fun j hj hkey => ?_⟩
    have hne := List.nodup_iff_getElem?_ne_getElem?.1 hd j i hj (by simpa using hi)
    have hjl : j < xs.length := by omega
    simp only [beq_iff_eq] at hkey
    exact hne (by simp [hkey, hi, hjl])

theorem position?_eq_some_iff {records : List (QueueRecord α)} (hd : (records.map (·.name)).Nodup)
    {name : String} {i : Nat} :
    position? records name = some i ↔ ∃ r, records[i]? = some r ∧ r.name = name :=
  findIdx?_key_eq_some_iff hd

theorem idOf?_eq_some_iff {t : QueueTree α} (hd : t.Distinct) {name : String} {i : Nat} :
    t.idOf? name = some i ↔ ∃ node, t.get? i = some node ∧ node.name = name :=
  findIdx?_key_eq_some_iff hd

/-- A name tells its node's place. -/
theorem id_eq_of_name_eq {t : QueueTree α} (hd : t.Distinct) {i j : Nat} {m n : QueueNode α}
    (hi : t.get? i = some m) (hj : t.get? j = some n) (h : m.name = n.name) : i = j := by
  have h1 := (idOf?_eq_some_iff hd).2 ⟨m, hi, rfl⟩
  have h2 := (idOf?_eq_some_iff hd).2 ⟨n, hj, rfl⟩
  rw [h, h2] at h1
  exact (Option.some.inj h1).symm

/-- A name finds its node. -/
theorem byName?_of_get? {t : QueueTree α} (hd : t.Distinct) {i : Nat} {node : QueueNode α}
    (h : t.get? i = some node) : t.byName? node.name = some node := by
  unfold byName?
  cases hfind : t.nodes.find? (·.name == node.name) with
  | none => simpa using List.find?_eq_none.1 hfind node (List.mem_of_getElem? h)
  | some other =>
    have hname : other.name = node.name := by simpa using List.find?_some hfind
    obtain ⟨j, hj⟩ := List.getElem?_of_mem (List.mem_of_find?_eq_some hfind)
    rw [id_eq_of_name_eq hd h hj hname.symm] at h
    exact hj.symm.trans h

theorem get?_of_lt {t : QueueTree α} {i : Nat} (h : i < t.size) : ∃ node, t.get? i = some node :=
  ⟨_, List.getElem?_eq_getElem h⟩

theorem lt_of_get? {t : QueueTree α} {i : Nat} {node : QueueNode α} (h : t.get? i = some node) :
    i < t.size := (List.getElem?_eq_some_iff.1 h).1

theorem mem_nodes_of_get? {t : QueueTree α} {i : Nat} {node : QueueNode α} (h : t.get? i = some node) :
    node ∈ t.nodes := List.mem_of_getElem? h

theorem get?_of_rootId? {t : QueueTree α} {id : Nat} (h : t.rootId? = some id) :
    ∃ node, t.get? id = some node ∧ node.name = rootName := by
  obtain ⟨hid, hname, -⟩ := List.findIdx?_eq_some_iff_getElem.1 h
  exact ⟨_, List.getElem?_eq_getElem hid, by simpa using hname⟩

/-! ## Built trees -/

theorem get?_build (records : List (QueueRecord α)) (i : Nat) :
    (build records).get? i = (firstRecords records)[i]?.map (resolve (firstRecords records)) := by
  simp [build, get?]

theorem build_distinct (records : List (QueueRecord α)) : (build records).Distinct := by
  have h := firstRecords_nodup records
  unfold Distinct build
  rw [List.map_map]
  exact h

theorem build_linked (records : List (QueueRecord α)) : (build records).Linked := by
  intro node hnode c hc
  obtain ⟨r, -, rfl⟩ := List.mem_map.1 hnode
  obtain ⟨name, -, hpos⟩ := List.mem_filterMap.1 hc
  obtain ⟨s, hs, -⟩ := (position?_eq_some_iff (firstRecords_nodup records)).1 hpos
  simpa [size, build] using (List.getElem?_eq_some_iff.1 hs).1

end QueueBoard.QueueTree
