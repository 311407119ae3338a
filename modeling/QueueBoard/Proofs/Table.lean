import Mathlib.Data.List.Basic
import Mathlib.Data.List.DropRight
import QueueBoard.Proofs.Decimal.Digits
import QueueBoard.Proofs.Text.Splitting
import QueueBoard.Table
/-!
# Tables read back

The lines between the rules of a drawing begin and end with a bar and have one between two cells, so what stands
between the bars, without the blanks around it, is the header and the rows (`readRows_text`).
-/

namespace QueueBoard.Table

/-- A cell between two bars, without the blank before it and all those after it. -/
def cellBetween (text : String) : String := String.ofList ((text.toList.drop 1).rdropWhile (· == ' '))

/-- The cells of a line: what stands between its bars. -/
def readCells (line : String) : List String := ((line.splitOn "│").drop 1).dropLast.map cellBetween

/-- Whether a line begins with a bar. -/
def isBarred (line : String) : Bool := line.toList.head? == some '│'

/-- The rows of a drawing: its lines that begin with a bar. -/
def readRows (drawing : String) : List (List String) := ((Text.lines drawing).filter isBarred).map readCells

/-- A cell of one line, without bars, that does not end in a blank. -/
structure Legible (cell : String) : Prop where
  oneLine : '\n' ∉ cell.toList
  unbarred : '│' ∉ cell.toList
  trimmed : cell.toList.getLast? ≠ some ' '

instance (cell : String) : Decidable (Legible cell) :=
  decidable_of_iff ('\n' ∉ cell.toList ∧ '│' ∉ cell.toList ∧ cell.toList.getLast? ≠ some ' ')
    ⟨fun h => ⟨h.1, h.2.1, h.2.2⟩, fun h => ⟨h.oneLine, h.unbarred, h.trimmed⟩⟩

/-! ## Cells -/

/-- The end of a cell decides whether it ends in a blank. -/
theorem Legible.append {front cell : String} (hbreak : '\n' ∉ front.toList) (hbar : '│' ∉ front.toList)
    (h : Legible cell) (hne : cell ≠ "") : Legible (front ++ cell) := by
  refine ⟨?_, ?_, ?_⟩
  · simpa [hbreak] using h.oneLine
  · simpa [hbar] using h.unbarred
  · rw [String.toList_append, List.getLast?_append_of_ne_nil _ (String.toList_eq_nil_iff.not.2 hne)]
    exact h.trimmed

theorem legible_of_isMark {cell : String} (h : ∀ c ∈ cell.toList, Decimal.isMark c = true) : Legible cell where
  oneLine hmem := absurd (h _ hmem) (by decide)
  unbarred hmem := absurd (h _ hmem) (by decide)
  trimmed hlast := absurd (h _ (List.mem_of_getLast? hlast)) (by decide)

theorem legible_toString (n : Nat) : Legible (toString n) :=
  legible_of_isMark fun _ hc => Decimal.isMark_of_mem_toDigits (by simpa using hc)

section Cells

variable {cell : String} (h : Legible cell)
include h

theorem Legible.cellLines_eq : cellLines cell = [cell] := by
  have hcell : ∀ part ∈ [cell], '\n' ∉ part.toList := by simpa using h.oneLine
  have hsplit := Text.splitOn_intercalate hcell (List.cons_ne_nil _ _)
  rw [String.intercalate_singleton] at hsplit
  exact hsplit

theorem Legible.cellBetween_padded (width : Nat) : cellBetween (padded width cell) = cell := by
  have hkept : cell.toList.rdropWhile (· == ' ') = cell.toList := by
    rw [List.rdropWhile_eq_self_iff]
    intro hne hblank
    exact h.trimmed (by rw [List.getLast?_eq_getLast_of_ne_nil hne, eq_of_beq hblank])
  have hchars : (padded width cell).toList.drop 1 =
      cell.toList ++ List.replicate (width - Text.columns cell.toList + 1) ' ' := by
    simp [padded, run, List.replicate_succ']
  have hblanks : ∀ n, (cell.toList ++ List.replicate n ' ').rdropWhile (· == ' ') = cell.toList := by
    intro n
    induction n with
    | zero => rw [List.replicate_zero, List.append_nil, hkept]
    | succ n ih => rw [List.replicate_succ', ← List.append_assoc, List.rdropWhile_concat_pos _ _ _ rfl, ih]
  rw [cellBetween, hchars, hblanks, String.ofList_toList]

omit h in
theorem notMem_padded {c : Char} (hblank : c ≠ ' ') (hc : c ∉ cell.toList) (width : Nat) :
    c ∉ (padded width cell).toList := by
  simp [padded, run, hblank, hc]

end Cells

/-! ## Rows -/

/-- The line of a row whose cells take one line each. -/
def rowLine (widths : List Nat) (row : List String) : String :=
  "│" ++ "│".intercalate (List.zipWith padded widths row) ++ "│"

theorem isBarred_rowLine (widths : List Nat) (row : List String) : isBarred (rowLine widths row) = true := by
  simp [isBarred, rowLine]

section Rows

variable {widths : List Nat} {row : List String} (h : ∀ cell ∈ row, Legible cell)
include h

theorem rowLines_legible (hne : row ≠ []) : rowLines widths row = [rowLine widths row] := by
  have hcells : row.map cellLines = row.map ([·]) := List.map_congr_left fun cell hcell => (h cell hcell).cellLines_eq
  have hheight : (row.map ([·])).foldl (fun height lines => max height lines.length) 0 = 1 := by
    obtain ⟨first, rest, rfl⟩ := List.exists_cons_of_ne_nil hne
    rw [List.foldl_map, List.foldl_cons]
    exact List.foldl_fixed' (fun _ => rfl) rest
  rw [rowLines, hcells, hheight, List.range_one, List.map_singleton, List.zipWith_map_right]
  rfl

theorem map_cellBetween_zipWith (hlength : widths.length = row.length) :
    (List.zipWith padded widths row).map cellBetween = row := by
  induction row generalizing widths with
  | nil => simp
  | cons cell row ih =>
    obtain ⟨width, widths, rfl⟩ : ∃ width rest, widths = width :: rest :=
      List.exists_cons_of_length_eq_add_one hlength
    obtain ⟨hcell, hrow⟩ := List.forall_mem_cons.1 h
    rw [List.zipWith_cons_cons, List.map_cons, hcell.cellBetween_padded, ih hrow (Nat.succ.inj hlength)]

omit h in
theorem notMem_of_mem_zipWith_padded {c : Char} (hblank : c ≠ ' ') (hc : ∀ cell ∈ row, c ∉ cell.toList) :
    ∀ part ∈ List.zipWith padded widths row, c ∉ part.toList := by
  intro part hpart
  rw [← List.map_uncurry_zip_eq_zipWith] at hpart
  obtain ⟨⟨width, cell⟩, hmem, rfl⟩ := List.mem_map.1 hpart
  exact notMem_padded hblank (hc cell (List.of_mem_zip hmem).2) width

theorem readCells_rowLine (hlength : widths.length = row.length) (hne : row ≠ []) :
    readCells (rowLine widths row) = row := by
  let parts := List.zipWith padded widths row
  have hparts : parts ≠ [] := by
    intro hnil
    rcases List.zipWith_eq_nil_iff.1 hnil with rfl | rfl
    · exact hne (List.length_eq_zero_iff.1 hlength.symm)
    · exact hne rfl
  -- nothing stands before the first bar and after the last one
  have hline : rowLine widths row = "│".intercalate (("" :: parts) ++ [""]) := by
    rw [String.intercalate_append_of_ne_nil (List.cons_ne_nil _ _) (List.cons_ne_nil _ _),
      String.intercalate_cons_of_ne_nil hparts, String.intercalate_singleton, String.append_empty, String.empty_append]
    rfl
  have hbars : ∀ part ∈ ("" :: parts) ++ [""], '│' ∉ part.toList := by
    simp only [List.forall_mem_append, List.forall_mem_cons]
    refine ⟨⟨by simp, notMem_of_mem_zipWith_padded (by decide) fun cell hcell => (h cell hcell).unbarred⟩, by simp⟩
  have hsplit := Text.splitOn_intercalate hbars (List.concat_ne_nil _ _)
  rw [readCells, hline, show "│" = String.singleton '│' from rfl, hsplit, List.cons_append, List.drop_one,
    List.tail_cons, List.dropLast_concat, map_cellBetween_zipWith h hlength]

theorem break_notMem_rowLine : '\n' ∉ (rowLine widths row).toList := by
  have hparts : ∀ part ∈ List.zipWith padded widths row, '\n' ∉ part.toList :=
    notMem_of_mem_zipWith_padded (by decide) fun cell hcell => (h cell hcell).oneLine
  have hinner : '\n' ∉ ("│".intercalate (List.zipWith padded widths row)).toList :=
    Text.notMem_intercalate (by decide) hparts
  simpa [rowLine] using hinner

end Rows

/-! ## Drawings -/

section Rules

variable {left between right : String}

theorem break_notMem_rule (hleft : '\n' ∉ left.toList) (hbetween : '\n' ∉ between.toList)
    (hright : '\n' ∉ right.toList) (widths : List Nat) : '\n' ∉ (rule left between right widths).toList := by
  have hruns : ∀ part ∈ widths.map fun w => run (w + 2) '─', '\n' ∉ part.toList := by simp [run]
  have hinner := Text.notMem_intercalate hbetween hruns
  simpa [rule, hleft, hright] using hinner

theorem isBarred_rule (hleft : left.toList ≠ []) (widths : List Nat) :
    isBarred (rule left between right widths) = isBarred left := by
  rw [isBarred, rule, String.toList_append, String.toList_append, List.append_assoc,
    List.head?_append_of_ne_nil _ hleft, isBarred]

end Rules

section Drawings

variable {t : Table} (hlength : ∀ row ∈ t.rows, row.length = t.header.length)
include hlength

theorem length_widths : t.widths.length = t.header.length := by
  have hfold : ∀ (rows : List (List String)) (widths : List Nat), (∀ row ∈ rows, row.length = widths.length) →
      (rows.foldl (fun widths row => List.zipWith (fun w cell => max w (cellColumns cell)) widths row)
        widths).length = widths.length := by
    intro rows
    induction rows with
    | nil => exact fun widths _ => rfl
    | cons row rows ih =>
      intro widths h
      obtain ⟨hrow, hrows⟩ := List.forall_mem_cons.1 h
      have hstep : (List.zipWith (fun w cell => max w (cellColumns cell)) widths row).length = widths.length := by
        rw [List.length_zipWith, hrow, Nat.min_self]
      rw [List.foldl_cons, ih _ fun other hother => (hrows other hother).trans hstep.symm, hstep]
  rw [widths, hfold _ _ fun row hrow => (hlength row hrow).trans (List.length_map ..).symm, List.length_map]

variable (hne : t.header ≠ [])
include hne

theorem ne_nil_of_mem_rows : ∀ row ∈ t.rows, row ≠ [] := by
  rintro row hrow rfl
  exact hne (List.length_eq_zero_iff.1 (hlength [] hrow).symm)

variable (hheader : ∀ cell ∈ t.header, Legible cell) (hcells : ∀ row ∈ t.rows, ∀ cell ∈ row, Legible cell)
include hheader hcells

/-- Rules around the lines of the header and the rows, the last one only under rows. -/
theorem exists_lines_eq : ∃ bottom, (∀ line ∈ bottom, line = rule "╰" "┴" "╯" t.widths) ∧
    t.lines = rule "╭" "┬" "╮" t.widths :: rowLine t.widths t.header ::
      rule "├" "┼" "┤" t.widths :: (t.rows.map (rowLine t.widths) ++ bottom) := by
  have hrows : t.rows.flatMap (rowLines t.widths) = t.rows.map (rowLine t.widths) := by
    rw [List.map_eq_flatMap]
    exact List.flatMap_congr fun row hrow =>
      rowLines_legible (hcells row hrow) (ne_nil_of_mem_rows hlength hne row hrow)
  refine ⟨if t.rows.isEmpty then [] else [rule "╰" "┴" "╯" t.widths], by split <;> simp, ?_⟩
  rw [lines, rowLines_legible hheader hne, hrows]
  rfl

theorem break_notMem_lines : ∀ line ∈ t.lines, '\n' ∉ line.toList := by
  obtain ⟨bottom, hbottom, hlines⟩ := exists_lines_eq hlength hne hheader hcells
  rw [hlines]
  simp only [List.forall_mem_cons, List.forall_mem_append, List.forall_mem_map]
  refine ⟨break_notMem_rule (by decide) (by decide) (by decide) _, break_notMem_rowLine hheader,
    break_notMem_rule (by decide) (by decide) (by decide) _, fun row hrow => break_notMem_rowLine (hcells row hrow),
    fun line hline => ?_⟩
  rw [hbottom line hline]
  exact break_notMem_rule (by decide) (by decide) (by decide) _

theorem filter_isBarred_lines : t.lines.filter isBarred = (t.header :: t.rows).map (rowLine t.widths) := by
  obtain ⟨bottom, hbottom, hlines⟩ := exists_lines_eq hlength hne hheader hcells
  have htop : ¬ isBarred (rule "╭" "┬" "╮" t.widths) = true := by
    rw [isBarred_rule (by decide)]
    decide
  have hmiddle : ¬ isBarred (rule "├" "┼" "┤" t.widths) = true := by
    rw [isBarred_rule (by decide)]
    decide
  have hrows : (t.rows.map (rowLine t.widths)).filter isBarred = t.rows.map (rowLine t.widths) :=
    List.filter_eq_self.2 (List.forall_mem_map.2 fun row _ => isBarred_rowLine _ row)
  have hunder : bottom.filter isBarred = [] := by
    refine List.filter_eq_nil_iff.2 fun line hline => ?_
    rw [hbottom line hline, isBarred_rule (by decide)]
    decide
  rw [hlines, List.filter_cons_of_neg htop, List.filter_cons_of_pos (isBarred_rowLine _ _),
    List.filter_cons_of_neg hmiddle, List.filter_append, hrows, hunder, List.append_nil, List.map_cons]

omit hlength hne hheader hcells in
theorem text_ne_empty (t : Table) : t.text ≠ "" := by
  obtain ⟨rest, hrest⟩ : ∃ rest, t.lines = rule "╭" "┬" "╮" t.widths :: rest := ⟨_, rfl⟩
  obtain ⟨more, hmore⟩ := Text.exists_intercalate_cons "\n" (rule "╭" "┬" "╮" t.widths) rest
  intro hempty
  rw [text, hrest, hmore] at hempty
  simpa [rule] using congrArg String.toList hempty

/-- **The drawing of a table shows its header and its rows,** every cell as it is. -/
theorem readRows_text : readRows (t.text ++ "\n") = t.header :: t.rows := by
  have hwidths := length_widths hlength
  have hread : ∀ row ∈ t.header :: t.rows, readCells (rowLine t.widths row) = row := by
    refine List.forall_mem_cons.2 ⟨readCells_rowLine hheader hwidths hne, fun row hrow => ?_⟩
    exact readCells_rowLine (hcells row hrow) (hwidths.trans (hlength row hrow).symm)
      (ne_nil_of_mem_rows hlength hne row hrow)
  have hsome : t.lines ≠ [] := by
    obtain ⟨bottom, -, hlines⟩ := exists_lines_eq hlength hne hheader hcells
    rw [hlines]
    exact List.cons_ne_nil _ _
  rw [readRows, text, Text.intercalate_append_break hsome,
    Text.lines_join (break_notMem_lines hlength hne hheader hcells),
    filter_isBarred_lines hlength hne hheader hcells, List.map_map]
  exact (List.map_congr_left hread).trans (List.map_id' _)

end Drawings

end QueueBoard.Table
