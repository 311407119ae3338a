import Mathlib.Algebra.Order.BigOperators.Group.List
import Mathlib.Algebra.Ring.Int.Defs
import QueueBoard.Proofs.Dashboard.Elements
import QueueBoard.Proofs.Queue.Walk
/-!
# From row to row

The selection is a name, and is looked up among the rows at each step. No two rows have one name, so a name
taken from a row is found there again (`SelectedAt.currentRow_eq`), and the neighbor is the row at that
distance, or the last one on the way (`rowAfter`). Steps in one direction add up (`foldl_rowAfter`), though
steps back and forth need not.

A machine counts rows in words of 64 bits, where a sum may wrap around. Cut off by its carry it is the
nearest word to the exact sum (`toNat_movedWord`), so words find the same neighbors (`neighborInWords_eq`).
-/

namespace QueueBoard

/-! ## Rows -/

/-- The row some rows away from one of so many; the first and the last are as far as it goes. -/
def rowAfter (rows current : Nat) (offset : Int) : Nat :=
  min ((current : Int) + offset).toNat (rows - 1)

section

variable {rows current : Nat} {offset : Int}

theorem rowAfter_lt (h : 0 < rows) : rowAfter rows current offset < rows := by
  unfold rowAfter
  omega

theorem cast_rowAfter (h : 0 < rows) :
    (rowAfter rows current offset : Int) = min (max (current + offset) 0) (rows - 1) := by
  unfold rowAfter
  omega

theorem rowAfter_first (h : (current : Int) + offset ≤ 0) : rowAfter rows current offset = 0 := by
  unfold rowAfter
  omega

theorem rowAfter_last (h : (rows : Int) - 1 ≤ current + offset) : rowAfter rows current offset = rows - 1 := by
  unfold rowAfter
  omega

/-- Steps in one direction go as far as their sum, for once at an end they stay there. -/
theorem foldl_rowAfter {offsets : List Int} (hcurrent : current < rows)
    (hsign : (∀ offset ∈ offsets, 0 ≤ offset) ∨ ∀ offset ∈ offsets, offset ≤ 0) :
    offsets.foldl (rowAfter rows) current = rowAfter rows current offsets.sum := by
  induction offsets generalizing current with
  | nil =>
    rw [List.foldl_nil, List.sum_nil, rowAfter]
    omega
  | cons first rest ih =>
    have hrest : (∀ offset ∈ rest, 0 ≤ offset) ∨ ∀ offset ∈ rest, offset ≤ 0 :=
      hsign.imp (fun h => (List.forall_mem_cons.1 h).2) fun h => (List.forall_mem_cons.1 h).2
    have hsame : (0 ≤ first ∧ 0 ≤ rest.sum) ∨ (first ≤ 0 ∧ rest.sum ≤ 0) := by
      refine hsign.imp (fun h => ?_) fun h => ?_
      · obtain ⟨hfirst, h⟩ := List.forall_mem_cons.1 h
        exact ⟨hfirst, List.sum_nonneg h⟩
      · obtain ⟨hfirst, h⟩ := List.forall_mem_cons.1 h
        exact ⟨hfirst, (List.sum_le_card_nsmul rest 0 h).trans_eq (nsmul_zero _)⟩
    rw [List.foldl_cons, List.sum_cons, ih (rowAfter_lt (by omega)) hrest]
    -- a first step cut off at an end leaves the rest nowhere to go, for it goes the same way
    unfold rowAfter
    omega

end

/-! ## Rows in words -/

/-- The word some words away: the wrapped sum, or the end of the range that the carry tells it passed. -/
def movedWord (position : UInt64) (offset : Int64) : UInt64 :=
  let sum := position + offset.toUInt64
  let carried := decide (sum < position)
  if carried = decide (offset < 0) then sum else if carried then UInt64.ofNat (2 ^ 64 - 1) else 0

/-- The moved word is the word next to the exact sum. -/
theorem toNat_movedWord (position : UInt64) (offset : Int64) :
    ((movedWord position offset).toNat : Int) =
      min (max (position.toNat + offset.toInt) 0) (2 ^ 64 - 1) := by
  have hposition := position.toNat_lt
  have hoffset := offset.toUInt64.toNat_lt
  have hsum : (position + offset.toUInt64).toNat = (position.toNat + offset.toUInt64.toNat) % 2 ^ 64 :=
    UInt64.toNat_add ..
  have hsigned : offset.toInt = if 2 * offset.toUInt64.toNat < 2 ^ 64 then (offset.toUInt64.toNat : Int)
      else offset.toUInt64.toNat - 2 ^ 64 := BitVec.toInt_eq_toNat_cond offset.toBitVec
  have hneg : offset < 0 ↔ offset.toInt < 0 := Int64.lt_iff_toInt_lt
  simp only [movedWord, UInt64.lt_iff_toNat_lt, hneg]
  split
  · rename_i h
    rw [decide_eq_decide] at h
    omega
  · rename_i h
    rw [decide_eq_decide] at h
    split
    · rename_i hcarried
      rw [decide_eq_true_iff] at hcarried
      rw [UInt64.toNat_ofNat_of_lt' (by decide)]
      omega
    · rename_i hcarried
      rw [decide_eq_true_iff] at hcarried
      rw [UInt64.toNat_zero]
      omega

namespace QueueDashboard

variable {α : Type} {d : QueueDashboard α} {i : Nat}

/-! ## The neighbors of the selection -/

/-- The row of the selection; the first if it is not visible. -/
def currentRow (d : QueueDashboard α) : Nat :=
  (d.selected.bind fun name => d.layout.rows.findIdx? (·.name == name)).getD 0

/-- The selection is the queue of a row. -/
def SelectedAt (d : QueueDashboard α) (i : Nat) : Prop :=
  ∃ row, d.layout.rows[i]? = some row ∧ d.selected = some row.name

theorem neighbor_eq (d : QueueDashboard α) (offset : Int) :
    d.neighbor offset = d.layout.rows[rowAfter d.layout.rows.length d.currentRow offset]?.map (·.name) := rfl

theorem SelectedAt.lt (h : d.SelectedAt i) : i < d.layout.rows.length := by
  obtain ⟨row, hrow, -⟩ := h
  exact (List.getElem?_eq_some_iff.1 hrow).1

/-- The selection is found on the row that it was taken from. -/
theorem SelectedAt.currentRow_eq (h : d.SelectedAt i) (hnames : (d.layout.rows.map (·.name)).Nodup) :
    d.currentRow = i := by
  obtain ⟨row, hrow, hselected⟩ := h
  have hfind : d.layout.rows.findIdx? (·.name == row.name) = some i :=
    (QueueTree.findIdx?_key_eq_some_iff hnames).2 ⟨row, hrow, rfl⟩
  rw [currentRow, hselected, Option.bind_some, hfind, Option.getD_some]

theorem currentRow_lt (h : 0 < d.layout.rows.length) : d.currentRow < d.layout.rows.length := by
  unfold currentRow
  cases hfind : d.selected.bind fun name => d.layout.rows.findIdx? (·.name == name) with
  | none => exact h
  | some row =>
    obtain ⟨name, -, hrow⟩ := Option.bind_eq_some_iff.1 hfind
    exact (List.findIdx?_eq_some_iff_getElem.1 hrow).1

theorem exists_neighbor (h : 0 < d.layout.rows.length) (offset : Int) :
    ∃ row, d.layout.rows[rowAfter d.layout.rows.length d.currentRow offset]? = some row ∧
      d.neighbor offset = some row.name := by
  have hlt : rowAfter d.layout.rows.length d.currentRow offset < d.layout.rows.length := rowAfter_lt h
  have hrow := List.getElem?_eq_getElem hlt
  exact ⟨_, hrow, by rw [neighbor_eq, hrow, Option.map_some]⟩

theorem neighbor_eq_none_iff (offset : Int) : d.neighbor offset = none ↔ d.layout.rows.length = 0 := by
  constructor
  · intro hnone
    by_contra hrows
    obtain ⟨row, -, hsome⟩ := exists_neighbor (Nat.pos_of_ne_zero hrows) offset
    rw [hnone] at hsome
    cases hsome
  · intro hrows
    rw [neighbor_eq, List.length_eq_zero_iff.1 hrows]
    rfl

/-! ## Neighbors by words -/

/-- The neighbor as a machine finds it, whose places and distances are words. -/
def neighborInWords (d : QueueDashboard α) (offset : Int64) : Option String :=
  match d.layout.rows.length with
  | 0 => none
  | last + 1 =>
    let target := movedWord (UInt64.ofNat d.currentRow) offset
    let row := if target < UInt64.ofNat last then target else UInt64.ofNat last
    d.layout.rows[row.toNat]?.map (·.name)

/-- Words find the same neighbors, if they can number the rows. -/
theorem neighborInWords_eq (hfew : d.layout.rows.length ≤ 2 ^ 64) (offset : Int64) :
    d.neighborInWords offset = d.neighbor offset.toInt := by
  unfold neighborInWords
  split
  · rename_i hrows
    exact ((neighbor_eq_none_iff _).2 hrows).symm
  · rename_i last hrows
    have hcurrent : d.currentRow < d.layout.rows.length := currentRow_lt (by omega)
    have hword : (UInt64.ofNat d.currentRow).toNat = d.currentRow :=
      UInt64.toNat_ofNat_of_lt' (show _ < 2 ^ 64 by omega)
    have hlast : (UInt64.ofNat last).toNat = last := UInt64.toNat_ofNat_of_lt' (show _ < 2 ^ 64 by omega)
    have hmoved := toNat_movedWord (UInt64.ofNat d.currentRow) offset
    rw [hword] at hmoved
    have hrow : (if movedWord (UInt64.ofNat d.currentRow) offset < UInt64.ofNat last then
        movedWord (UInt64.ofNat d.currentRow) offset else UInt64.ofNat last).toNat =
          rowAfter d.layout.rows.length d.currentRow offset.toInt := by
      simp only [UInt64.lt_iff_toNat_lt, hlast]
      unfold rowAfter
      split <;> omega
    dsimp only
    rw [hrow, neighbor_eq]

variable [Scalar α] [Trig α]

/-! ## Drawn pictures -/

theorem Fresh.names_nodup (h : Fresh d) (hl : d.tree.Linked) (hd : d.tree.Distinct) :
    (d.layout.rows.map (·.name)).Nodup := by
  rw [h.layout_eq]
  exact TreeLayout.compute_names_nodup hl hd

/-- A selection leaves the rows alone. -/
theorem Fresh.layout_select (h : Fresh d) (name : String) : (d.select name).layout = d.layout :=
  h.layout_eq.symm

theorem Fresh.selectedAt_select (h : Fresh d) {row : PlacedNode α} (hrow : d.layout.rows[i]? = some row) :
    (d.select row.name).SelectedAt i :=
  ⟨row, by rw [h.layout_select]; exact hrow, rfl⟩

end QueueDashboard

end QueueBoard
