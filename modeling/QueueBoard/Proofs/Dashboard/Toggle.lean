import QueueBoard.Proofs.Dashboard.Elements
import QueueBoard.Proofs.Queue.FoldedSet
/-!
# Folding queue by queue

A call that toggles a queue's fold draws if the queue has something to fold, and does nothing
otherwise. So some calls in a row come to toggling the foldable names among them in the fold set and
drawing once (`Fresh.foldl_toggleFold`), and what is seen in the end depends on how often each name
came up to an even number, not on the order (`run_toggles`).
-/

namespace QueueBoard

variable {α : Type}

/-- A queue of this name has something to fold. -/
def QueueTree.Foldable (t : QueueTree α) (name : String) : Prop :=
  ∃ queue ∈ t.nodes, queue.name = name ∧ queue.children ≠ []

theorem QueueTree.canFold_iff {t : QueueTree α} (hd : t.Distinct) {name : String} :
    t.canFold name = true ↔ t.Foldable name := by
  unfold canFold
  constructor
  · intro h
    cases hfind : t.byName? name with
    | none => simp [hfind] at h
    | some queue =>
      have hname : queue.name = name := by simpa using List.find?_some hfind
      refine ⟨queue, List.mem_of_find?_eq_some hfind, hname, ?_⟩
      simpa [hfind, QueueNode.hasChildren] using h
  · rintro ⟨queue, hmem, rfl, hchildren⟩
    obtain ⟨i, hi⟩ := List.getElem?_of_mem hmem
    rw [byName?_of_get? hd hi]
    simpa [QueueNode.hasChildren] using hchildren

namespace QueueDashboard

variable [Scalar α] [Trig α] {d : QueueDashboard α}

/-! ## What is folded -/

/-- Folds are kept with the tree, start over, or change in a queue that can fold. -/
theorem apply_folded (d : QueueDashboard α) (op : Operation α) :
    ((d.apply op).folded = d.folded ∧ (d.apply op).tree = d.tree) ∨ (d.apply op).folded = {} ∨
      ∃ name, d.tree.canFold name = true ∧ (d.apply op).folded = d.folded.toggle name ∧
        (d.apply op).tree = d.tree := by
  have hovered : ∀ name, (d.hover name).folded = d.folded ∧ (d.hover name).tree = d.tree := by
    intro name
    rw [hover_frame]
    exact ⟨rfl, rfl⟩
  have toggled : ∀ name : String,
      ((d.toggleFold name).2.folded = d.folded ∧ (d.toggleFold name).2.tree = d.tree) ∨
        ∃ name', d.tree.canFold name' = true ∧ (d.toggleFold name).2.folded = d.folded.toggle name' ∧
          (d.toggleFold name).2.tree = d.tree := by
    intro name
    by_cases h : d.tree.canFold name = true
    · rw [toggleFold_of_canFold h]
      exact Or.inr ⟨name, h, rfl, rfl⟩
    · rw [toggleFold_of_not_canFold h]
      exact Or.inl ⟨rfl, rfl⟩
  cases op with
  | withPalette palette => exact Or.inl ⟨rfl, rfl⟩
  | load records => exact Or.inr (Or.inl rfl)
  | select name => exact Or.inl ⟨rfl, rfl⟩
  | toggleFold name => exact (toggled name).imp_right Or.inr
  | redraw => exact Or.inl ⟨rfl, rfl⟩
  | resize width =>
    simp only [apply, resize]
    split <;> exact Or.inl ⟨rfl, rfl⟩
  | pointerMoved pointer => exact Or.inl (hovered _)
  | pointerLeft =>
    rw [apply, pointerLeft_eq]
    exact Or.inl (hovered none)
  | click pointer =>
    simp only [apply, click]
    split <;> exact Or.inl ⟨rfl, rfl⟩
  | doubleClick pointer =>
    simp only [apply, doubleClick]
    split
    · exact Or.inl ⟨rfl, rfl⟩
    · exact (toggled _).imp_right Or.inr

/-- The names that are folded are in order, and each can fold. -/
structure FoldsFit (d : QueueDashboard α) : Prop where
  ordered : d.folded.Ordered
  foldable : ∀ name, d.folded.contains name = true → d.tree.canFold name = true

theorem FoldsFit.apply (h : FoldsFit d) (op : Operation α) : FoldsFit (d.apply op) := by
  rcases d.apply_folded op with ⟨hfolded, htree⟩ | hempty | ⟨name, hcan, hfolded, htree⟩
  · exact ⟨hfolded ▸ h.ordered, by rw [hfolded, htree]; exact h.foldable⟩
  · refine ⟨hempty ▸ FoldedSet.ordered_empty, fun name hname => ?_⟩
    rw [hempty] at hname
    cases hname
  · refine ⟨hfolded ▸ h.ordered.toggle name, fun other hother => ?_⟩
    rw [htree]
    by_cases heq : other = name
    · exact heq ▸ hcan
    · rw [hfolded, FoldedSet.contains_toggle, beq_eq_false_iff_ne.2 heq, Bool.bne_false] at hother
      exact h.foldable other hother

theorem run_foldsFit (width : α) (ops : List (Operation α)) : FoldsFit (run width ops) := by
  have hnew : FoldsFit (new width) := ⟨FoldedSet.ordered_empty, fun _ hname => nomatch hname⟩
  exact run_induction width hnew (fun _ op h => h.apply op) ops

/-! ## Calls in a row -/

/-- **Calls in a row toggle the foldable names among them and draw once for each of these.** -/
theorem Fresh.foldl_toggleFold (h : Fresh d) (names : List String) :
    (names.map Operation.toggleFold).foldl apply d =
      { redraw { d with folded := d.folded.toggles (names.filter d.tree.canFold) } with
        generation := d.generation + names.countP d.tree.canFold } := by
  induction names generalizing d with
  | nil =>
    have hself : d = { d.redraw with generation := d.generation } := by rw [h]
    exact hself
  | cons name rest ih =>
    rw [List.map_cons, List.foldl_cons]
    by_cases hcan : d.tree.canFold name = true
    · have hstep : d.apply (.toggleFold name) = redraw { d with folded := d.folded.toggle name } := by
        rw [apply, toggleFold_of_canFold hcan]
      rw [hstep, ih (redraw_fresh _), List.filter_cons_of_pos hcan, List.countP_cons_of_pos hcan,
        Nat.add_comm _ 1, ← Nat.add_assoc]
      rfl
    · have hstep : d.apply (.toggleFold name) = d := by rw [apply, toggleFold_of_not_canFold hcan]
      rw [hstep, ih h, List.filter_cons_of_neg hcan, List.countP_cons_of_neg hcan]

theorem even_count_filter (p : String → Bool) (names : List String) (name : String) :
    Even ((names.filter p).count name) ↔ (p name = true → Even (names.count name)) := by
  by_cases hp : p name = true
  · simp [List.count_filter hp, hp]
  · have hnone : (names.filter p).count name = 0 :=
      List.count_eq_zero.2 fun hmem => hp (List.mem_filter.1 hmem).2
    simp [hnone, hp]

/-- Calls with each foldable name equally often, up to an even number, lead to one picture. -/
theorem Fresh.foldl_toggleFold_congr (h : Fresh d) (hfit : FoldsFit d) {names names' : List String}
    (hparity : ∀ name, d.tree.canFold name = true → (Even (names.count name) ↔ Even (names'.count name))) :
    (names'.map Operation.toggleFold).foldl apply d =
      { (names.map Operation.toggleFold).foldl apply d with
        generation := ((names'.map Operation.toggleFold).foldl apply d).generation } := by
  have hfolded : d.folded.toggles (names.filter d.tree.canFold) =
      d.folded.toggles (names'.filter d.tree.canFold) := by
    refine hfit.ordered.toggles_eq fun name => ?_
    rw [even_count_filter, even_count_filter]
    exact forall_congr' fun hcan => hparity name hcan
  rw [h.foldl_toggleFold names, h.foldl_toggleFold names', hfolded]

/-- **Folds depend only on parity.** In any state, some calls that toggle folds: the next one answers
whether there is a queue of that name with something to fold, and counts a picture if so. By then the
foldable names that came up an odd number of times are flipped and no others, and the board is the one
drawn with these folds. Any calls with the same parities lead to the same board but for the count of
pictures, so toggling twice undoes itself; and whatever is folded could be. -/
theorem run_toggles (width : α) (ops : List (Operation α)) (names : List String) :
    let d := run width ops
    let toggled (names : List String) := run width (ops ++ names.map .toggleFold)
    let e := toggled names
    (∀ name, ((e.toggleFold name).1 = true ↔ d.tree.Foldable name) ∧
      (e.toggleFold name).2.generation = e.generation + (e.toggleFold name).1.toNat) ∧
    (∀ name, e.folded.contains name = d.folded.contains name ↔
      ¬ (d.tree.Foldable name ∧ Odd (names.count name))) ∧
    e = { redraw { d with folded := e.folded } with
      generation := d.generation + names.countP d.tree.canFold } ∧
    (∀ names', (∀ name, d.tree.Foldable name → (Even (names.count name) ↔ Even (names'.count name))) →
      toggled names' = { e with generation := (toggled names').generation }) ∧
    (∀ name, ((e.toggleFold name).2.toggleFold name).2 =
      { e with generation := ((e.toggleFold name).2.toggleFold name).2.generation }) ∧
    ∀ name, e.folded.contains name = true → e.tree.Foldable name := by
  intro d toggled e
  have hd : Fresh d := fresh_run width ops
  have he : Fresh e := fresh_run width _
  have hfit : FoldsFit e := run_foldsFit width _
  have htoggled : ∀ names, toggled names = (names.map Operation.toggleFold).foldl apply d :=
    fun names => run_append width ops _
  -- all that the calls come to: one picture, drawn with the folds they leave
  have hcalls : e = { redraw { d with folded := d.folded.toggles (names.filter d.tree.canFold) } with
      generation := d.generation + names.countP d.tree.canFold } :=
    (htoggled names).trans (hd.foldl_toggleFold names)
  have htree : e.tree = d.tree := by rw [hcalls]; rfl
  have hfolded : e.folded = d.folded.toggles (names.filter d.tree.canFold) := by rw [hcalls]; rfl
  obtain ⟨records, hbuild⟩ := run_tree width ops
  have hdistinct : d.tree.Distinct := hbuild ▸ QueueTree.build_distinct records
  have hcan : ∀ name, d.tree.canFold name = true ↔ d.tree.Foldable name :=
    fun name => QueueTree.canFold_iff hdistinct
  refine ⟨fun name => ?_, fun name => ?_, ?_, fun names' hparity => ?_, fun name => ?_, fun name hname => ?_⟩
  · rw [← hcan name, ← htree]
    by_cases h : e.tree.canFold name = true
    · rw [toggleFold_of_canFold h]
      exact ⟨⟨fun _ => h, fun _ => rfl⟩, rfl⟩
    · rw [toggleFold_of_not_canFold h]
      exact ⟨⟨fun hfalse => absurd hfalse Bool.false_ne_true, fun hcan => absurd hcan h⟩, rfl⟩
  · rw [hfolded, FoldedSet.contains_toggles, even_count_filter, hcan, not_and, Nat.not_odd_iff_even]
  · rw [hfolded]
    exact hcalls
  · rw [htoggled names', show e = _ from htoggled names]
    exact hd.foldl_toggleFold_congr (run_foldsFit width ops) fun name h => hparity name ((hcan name).1 h)
  · have htwice : ∀ other, e.tree.canFold other = true →
        (Even (([] : List String).count other) ↔ Even ([name, name].count other)) := by
      intro other _
      by_cases h : name = other
      · simp [h]
      · simp [h]
    exact he.foldl_toggleFold_congr hfit htwice
  · rw [htree]
    exact (hcan name).1 (htree ▸ hfit.foldable name hname)

/-- A department toggled twice, the root three times, a team without children and a name of no queue:
as if the root had been toggled once. -/
theorem run_toggles_root :
    let record (name : String) (children : List String) : QueueRecord Float :=
      { QueueRecord.named name with children }
    let load : List (Operation Float) := [.load [record "root" ["a"], record "a" ["team"], record "team" []]]
    let names := ["a", "root", "team", "root", "a", "nobody", "root"]
    let e := run 1200 (load ++ names.map .toggleFold)
    let f := run 1200 (load ++ ["root"].map .toggleFold)
    (∀ name, (run 1200 load).tree.Foldable name → (Even (names.count name) ↔ Even (["root"].count name))) ∧
      f = { e with generation := f.generation } ∧ e.folded.names = ["root"] := by
  intro record load names e f
  have hparity : ∀ name, (run 1200 load).tree.Foldable name →
      (Even (names.count name) ↔ Even (["root"].count name)) := by
    rintro name ⟨queue, hqueue, rfl, hchildren⟩
    have hnodes : ∀ queue ∈ (run 1200 load).tree.nodes, queue.children ≠ [] →
        (Even (names.count queue.name) ↔ Even (["root"].count queue.name)) := by decide
    exact hnodes queue hqueue hchildren
  obtain ⟨-, -, -, hsame, -, -⟩ := run_toggles 1200 load names
  exact ⟨hparity, hsame ["root"] hparity, by decide⟩

end QueueDashboard

end QueueBoard
