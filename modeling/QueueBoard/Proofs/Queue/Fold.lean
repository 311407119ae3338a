import QueueBoard.Proofs.Queue.Preorder
import QueueBoard.Scalar.Float
import Mathlib.Data.List.TakeWhile
/-!
# Folding over a forest

Folding a visible queue takes away the deeper rows right after its own and no others, whatever else
is folded (`compute_insert_rows`). In a listing the subtree of a queue is exactly that run: what
comes after it starts at the depth of the queue or above.
-/

namespace QueueBoard

variable {α : Type}

namespace FoldedSet

theorem mem_insertName {name other : String} (names : List String) :
    other ∈ insertName name names ↔ other = name ∨ other ∈ names := by
  induction names with
  | nil => simp [insertName]
  | cons n rest ih =>
    rw [insertName]
    split
    · rename_i h
      rw [beq_iff_eq] at h
      simp [h]
    · split
      · simp
      · rw [List.mem_cons, ih, List.mem_cons, or_left_comm]

/-- A name more is folded, and nothing else changes. -/
theorem contains_insert (F : FoldedSet) (name other : String) :
    (F.insert name).contains other = (other == name || F.contains other) := by
  rw [Bool.eq_iff_iff]
  simp [contains, insert, mem_insertName]

theorem contains_insert_of_ne (F : FoldedSet) {name other : String} (h : other ≠ name) :
    (F.insert name).contains other = F.contains other := by
  rw [contains_insert, beq_eq_false_iff_ne.2 h, Bool.false_or]

/-- A name less is folded, and nothing else changes. -/
theorem contains_erase (F : FoldedSet) (name other : String) :
    (F.erase name).contains other = (other != name && F.contains other) := by
  rw [Bool.eq_iff_iff]
  simp [contains, erase, and_comm]

/-- Toggling flips the state of one name. -/
theorem contains_toggle (F : FoldedSet) (name other : String) :
    (F.toggle name).contains other = (F.contains other != (other == name)) := by
  unfold toggle
  by_cases h : other = name
  · subst h
    split <;> simp_all [contains_insert, contains_erase]
  · have hne : (other == name) = false := beq_eq_false_iff_ne.2 h
    split <;> simp [contains_insert, contains_erase, bne, hne]

end FoldedSet

namespace TreeLayout

open QueueTree

variable {tree : QueueTree α} {F : FoldedSet} {depth x : Nat} {children : List Nat} {node : QueueNode α}
  {listing : List (Nat × Nat)}

theorem shown_insert_self (hc : node.hasChildren = true) : node.shown (F.insert node.name) = [] := by
  simp [QueueNode.shown, hc, FoldedSet.contains_insert]

theorem shown_insert_of_ne {name : String} (h : node.name ≠ name) :
    node.shown (F.insert name) = node.shown F := by
  simp [QueueNode.shown, FoldedSet.contains_insert_of_ne F h]

/-- Dropping stops in front of what does not satisfy `p`. -/
theorem dropWhile_append_of_head {β : Type} {p : β → Bool} {xs ys : List β}
    (h : ∀ y ∈ ys.head?, p y = false) : (xs ++ ys).dropWhile p = xs.dropWhile p ++ ys := by
  have hys : ys.dropWhile p = ys := by
    cases ys with
    | nil => rfl
    | cons y rest => simp [h y rfl]
  rw [List.dropWhile_append, hys]
  split
  · rename_i hnil
    rw [List.isEmpty_iff.1 hnil, List.nil_append]
  · rfl

/-! ## Listings with one more fold -/

/-- Folding a queue the listing does not come to leaves the listing as it is. -/
theorem Preorder.insert_of_notMem (hd : tree.Distinct) (hn : tree.get? x = some node)
    (h : Preorder tree F depth children listing) (hx : x ∉ listing.map Prod.fst) :
    Preorder tree (F.insert node.name) depth children listing := by
  induction h with
  | nil => exact .nil _
  | @cons depth child rest m below after hm _ _ ihbelow ihafter =>
    simp only [List.cons_append, List.map_cons, List.map_append, List.mem_cons, List.mem_append,
      not_or] at hx
    have hne : m.name ≠ node.name := fun e => hx.1 (id_eq_of_name_eq hd hn hm e.symm)
    exact .cons hm (shown_insert_of_ne (F := F) hne ▸ ihbelow hx.2.1) (ihafter hx.2.2)

/-- Folding a queue of the listing takes away the run of deeper entries after its own. -/
theorem Preorder.insert_of_mem (hd : tree.Distinct) (hn : tree.get? x = some node)
    (hc : node.hasChildren = true) (h : Preorder tree F depth children listing)
    (hnd : (listing.map Prod.fst).Nodup) {d : Nat} (hx : (x, d) ∈ listing) :
    ∃ before after, listing = before ++ (x, d) :: after ∧
      Preorder tree (F.insert node.name) depth children
        (before ++ (x, d) :: after.dropWhile fun e => d < e.2) := by
  induction h with
  | nil => cases hx
  | @cons depth child rest m below after hm hbelow hafter ihbelow ihafter =>
    simp only [List.cons_append, List.map_cons, List.map_append, List.nodup_cons, List.nodup_append,
      List.mem_append, not_or] at hnd
    obtain ⟨⟨hchildb, hchilda⟩, hndb, hnda, hapart⟩ := hnd
    have hmem : ∀ {es : List (Nat × Nat)}, (x, d) ∈ es → x ∈ es.map Prod.fst :=
      fun h => List.mem_map_of_mem (f := Prod.fst) h
    rcases List.mem_append.1 hx with hx | hx
    · rcases List.mem_cons.1 hx with he | hx
      · -- the queue itself: the run is its subtree
        cases he
        cases hn.symm.trans hm
        refine ⟨[], below ++ after, rfl, ?_⟩
        have hrun : ∀ e ∈ below, decide (d < e.2) = true := fun e he => decide_eq_true (hbelow.le_depth e he)
        have hend : ∀ e ∈ after.head?, decide (d < e.2) = false := fun e he =>
          decide_eq_false (by rw [hafter.head_depth e he]; omega)
        rw [dropWhile_append_of_head hend, List.dropWhile_eq_nil_iff.2 hrun]
        have hnone : Preorder tree (F.insert node.name) (d + 1) (node.shown (F.insert node.name)) [] := by
          rw [shown_insert_self hc]
          exact .nil _
        exact .cons hm hnone (hafter.insert_of_notMem hd hm hchilda)
      · -- a queue below the first one: what comes after it there ends its run
        have hne : m.name ≠ node.name := by
          intro e
          exact hchildb (id_eq_of_name_eq hd hm hn e ▸ hmem hx)
        obtain ⟨b, a, rfl, hfold⟩ := ihbelow hndb hx
        refine ⟨(child, depth) :: b, a ++ after, by simp, ?_⟩
        have hdeep : depth + 1 ≤ d := hbelow.le_depth (x, d) (by simp)
        have hout : x ∉ after.map Prod.fst := fun ha => hapart x (hmem hx) x ha rfl
        have hend : ∀ e ∈ after.head?, decide (d < e.2) = false := fun e he =>
          decide_eq_false (by rw [hafter.head_depth e he]; omega)
        rw [dropWhile_append_of_head hend]
        have hlist := Preorder.cons hm (shown_insert_of_ne (F := F) hne ▸ hfold)
          (hafter.insert_of_notMem hd hn hout)
        rwa [List.cons_append, List.append_assoc] at hlist
    · -- a queue of a later subtree
      have hne : m.name ≠ node.name := by
        intro e
        exact hchilda (id_eq_of_name_eq hd hm hn e ▸ hmem hx)
      have hout : x ∉ below.map Prod.fst := fun hb => hapart x hb x (hmem hx) rfl
      obtain ⟨b, a, rfl, hfold⟩ := ihafter hnda hx
      refine ⟨(child, depth) :: below ++ b, a, by simp, ?_⟩
      have hlist := Preorder.cons hm
        (shown_insert_of_ne (F := F) hne ▸ hbelow.insert_of_notMem hd hn hout) hfold
      rwa [← List.append_assoc] at hlist

/-! ## Rows -/

variable [Scalar α]

/-- The rows one below the other, without a gap. -/
def renumber (rows : List (PlacedNode α)) : List (PlacedNode α) :=
  rows.mapIdx fun i row => { row with position := nodePosition row.depth i, sequence := i }

/-- `row` is what its node gets at its place. -/
def RowOf (tree : QueueTree α) (F : FoldedSet) (row : PlacedNode α) : Prop :=
  ∃ node, tree.get? row.id = some node ∧ row = node.row F row.id row.depth row.sequence

theorem Faithful.rowOf {l : TreeLayout α} (h : Faithful tree F l) {row : PlacedNode α}
    (hrow : row ∈ l.rows) : RowOf tree F row := by
  obtain ⟨i, hi⟩ := List.getElem?_of_mem hrow
  obtain ⟨n, hn, he⟩ := h i row hi
  have hseq : row.sequence = i := congrArg PlacedNode.sequence he
  exact ⟨n, hn, hseq ▸ he⟩

/-- The rows of a layout follow from where they are. -/
theorem Faithful.rows_eq {l : TreeLayout α} (h : Faithful tree F l) {rows : List (PlacedNode α)}
    (hout : l.outline = rows.map fun row => (row.id, row.depth)) (hd : ∀ row ∈ rows, RowOf tree F row) :
    l.rows = renumber rows := by
  have hlen : l.rows.length = rows.length := by simpa [outline] using congrArg List.length hout
  refine List.ext_getElem (by simp [renumber, hlen]) fun i hi hi' => ?_
  have hir : i < rows.length := hlen ▸ hi
  obtain ⟨m, hm, hrow⟩ := h i l.rows[i] (List.getElem?_eq_getElem hi)
  obtain ⟨n, hn, hkept⟩ := hd rows[i] (List.getElem_mem hir)
  have hentry : (l.rows[i].id, l.rows[i].depth) = (rows[i].id, rows[i].depth) := by
    have := congrArg (fun es => es[i]?) hout
    simpa [outline, hi, hir] using this
  obtain ⟨hid, hdep⟩ := Prod.mk.inj hentry
  rw [hid] at hm hrow
  cases hm.symm.trans hn
  rw [hdep] at hrow
  rw [hrow]
  simp only [renumber, List.getElem_mapIdx]
  rw [hkept]
  rfl

/-- Rows of other queues are drawn as before. -/
theorem RowOf.insert_of_ne {row : PlacedNode α} {name : String} (h : RowOf tree F row)
    (hne : row.name ≠ name) : RowOf tree (F.insert name) row := by
  obtain ⟨n, hn, he⟩ := h
  have hname : n.name ≠ name := fun e => hne ((congrArg PlacedNode.name he).trans e)
  refine ⟨n, hn, he.trans ?_⟩
  simp [QueueNode.row, FoldedSet.contains_insert_of_ne F hname]

/-- The row of the queue itself gets its mark. -/
theorem RowOf.insert_self {row : PlacedNode α} (h : RowOf tree F row) (hc : row.hasChildren = true) :
    RowOf tree (F.insert row.name) { row with folded := true } := by
  obtain ⟨n, hn, he⟩ := h
  have hname : row.name = n.name := congrArg PlacedNode.name he
  have hchildren : n.hasChildren = true := (congrArg PlacedNode.hasChildren he).symm.trans hc
  refine ⟨n, hn, ?_⟩
  rw [hname, he]
  simp [QueueNode.row, hchildren, FoldedSet.contains_insert]

/-- Where the rows are with one more fold. -/
theorem compute_insert_outline (hl : tree.Linked) (hd : tree.Distinct) (hf : tree.IsForest)
    {x : PlacedNode α} (hx : x ∈ (compute tree F).rows) (hc : x.hasChildren = true) :
    ∃ before after, (compute tree F).rows = before ++ x :: after ∧
      (compute tree (F.insert x.name)).outline =
        (before ++ x :: after.dropWhile fun row => x.depth < row.depth).map
          fun row => (row.id, row.depth) := by
  have hids := (compute_sound (F := F) hl).nodup
  obtain ⟨n, hn, hxn⟩ := (compute_faithful hl).rowOf hx
  have hname : x.name = n.name := congrArg PlacedNode.name hxn
  have hnc : n.hasChildren = true := (congrArg PlacedNode.hasChildren hxn).symm.trans hc
  obtain ⟨root, hr⟩ : ∃ root, tree.rootId? = some root := by
    cases hr : tree.rootId? with
    | none => simp [compute, hr] at hx
    | some root => exact ⟨root, rfl⟩
  have hmem : (x.id, x.depth) ∈ (compute tree F).outline := List.mem_map_of_mem hx
  obtain ⟨b, a, hsplit, hlist⟩ := (compute_preorder (F := F) hl hf hr).insert_of_mem hd hn hnc
    (by rw [← ids_eq_outline]; exact hids) hmem
  -- the entries around the queue's are those of the rows around its row
  obtain ⟨before, tail, hrows, rfl, htail⟩ := List.map_eq_append_iff.1 hsplit
  obtain ⟨x', after, rfl, hxe, rfl⟩ := List.map_eq_cons_iff.1 htail
  have hx' : x' = x :=
    List.inj_on_of_nodup_map hids (by rw [hrows]; simp) hx (congrArg Prod.fst hxe)
  subst hx'
  rw [List.dropWhile_map, ← hname] at hlist
  refine ⟨before, after, hrows, (hlist.outline_compute hl hr ?_).trans (by simp [Function.comp_def])⟩
  have hkept : (before ++ x' :: after.dropWhile fun row => x'.depth < row.depth).Sublist
      (before ++ x' :: after) := ((List.dropWhile_sublist _).cons_cons x').append_left before
  rw [ids, hrows] at hids
  simpa [Function.comp_def] using hids.sublist (hkept.map (·.id))

/-- **Folding hides exactly one subtree.** Over a forest, one more fold takes away the run of deeper
rows after the queue's own. The others stay as they are and move up, and the queue gets its mark. -/
theorem compute_insert_rows (records : List (QueueRecord α)) (F : FoldedSet)
    (hf : (QueueTree.build records).IsForest) {x : PlacedNode α}
    (hx : x ∈ (compute (QueueTree.build records) F).rows) (hc : x.hasChildren = true) :
    ∃ before after, (compute (QueueTree.build records) F).rows = before ++ x :: after ∧
      (compute (QueueTree.build records) (F.insert x.name)).rows =
        renumber (before ++ { x with folded := true } :: after.dropWhile fun row => x.depth < row.depth) := by
  have hl := build_linked records
  have hd := build_distinct records
  obtain ⟨before, after, hrows, hout⟩ := compute_insert_outline hl hd hf hx hc
  refine ⟨before, after, hrows, (compute_faithful hl).rows_eq (by simpa using hout) fun row hrow => ?_⟩
  have hkept : ∀ row ∈ (compute (QueueTree.build records) F).rows, RowOf _ F row :=
    fun row => (compute_faithful hl).rowOf
  have hnames := compute_names_nodup (F := F) hl hd
  rw [hrows, List.map_append, List.map_cons, List.nodup_append, List.nodup_cons] at hnames
  obtain ⟨-, ⟨hafter, -⟩, hbefore⟩ := hnames
  rw [hrows] at hkept
  -- no other row has the queue's name
  rcases List.mem_append.1 hrow with hrow | hrow
  · exact (hkept row (by simp [hrow])).insert_of_ne
      (hbefore _ (List.mem_map_of_mem hrow) _ List.mem_cons_self)
  · rcases List.mem_cons.1 hrow with rfl | hrow
    · exact (hkept x (by simp)).insert_self hc
    · have hrow := (List.dropWhile_sublist _).subset hrow
      exact (hkept row (by simp [hrow])).insert_of_ne fun e => hafter (e ▸ List.mem_map_of_mem hrow)

/-- Two departments, one of them with a team: folding that one hides the team alone. -/
theorem compute_insert_rows_department :
    let record (name : String) (children : List String) : QueueRecord Float :=
      { QueueRecord.named name with children }
    let records := [record "root" ["a", "b"], record "a" ["team"], record "team" [], record "b" []]
    let x : PlacedNode Float :=
      { id := 1, name := "a", position := nodePosition 1 1, depth := 1, sequence := 1, folded := false
        hasChildren := true }
    (QueueTree.build records).IsForest ∧ x ∈ (compute (QueueTree.build records) {}).rows ∧
      ∃ before after, (compute (QueueTree.build records) {}).rows = before ++ x :: after ∧
        (compute (QueueTree.build records) (FoldedSet.insert {} "a")).rows =
          renumber (before ++ { x with folded := true } ::
            after.dropWhile fun row => x.depth < row.depth) := by
  intro record records x
  have hf : (QueueTree.build records).IsForest := by
    refine ⟨by decide, fun root hr => ?_⟩
    cases hr.symm.trans (show (QueueTree.build records).rootId? = some 0 by decide)
    decide
  have hx : x ∈ (compute (QueueTree.build records) {}).rows := .tail _ (.head _)
  exact ⟨hf, hx, compute_insert_rows records {} hf hx rfl⟩

end TreeLayout

end QueueBoard
