import QueueBoard.Command.Run
/-!
# Steps on a tree of files

How the steps of a command run when the files are plain data: in order, up to the first error, each on the
warnings and the files that the one before left.
-/

namespace QueueBoard

/-! ## Programs over plain data -/

namespace OnFileTree

variable {β γ : Type} {t : FileTree}

theorem pure_run (b : β) : (pure b : OnFileTree β).run t = (b, t) := rfl

theorem bind_run (first : OnFileTree β) (next : β → OnFileTree γ) :
    (first >>= next).run t = (next (first.run t).1).run (first.run t).2 := rfl

@[simp] theorem read_run (path : String) : (FileStore.read path : OnFileTree _).run t = (t.read path, t) := rfl

@[simp] theorem entryExists_run (path : String) :
    (FileStore.entryExists path : OnFileTree _).run t = (t.entryExists path, t) := rfl

@[simp] theorem locate_run (path : String) :
    (FileStore.locate path : OnFileTree _).run t = (t.locate path, t) := rfl

/-- Programs that leave the files alone leave them alone one after another. -/
theorem mapM_run {program : β → OnFileTree γ} {result : β → γ} (h : ∀ b, (program b).run t = (result b, t))
    (bs : List β) : (bs.mapM program).run t = (bs.map result, t) := by
  induction bs with
  | nil => rfl
  | cons b bs ih => rw [List.mapM_cons, bind_run, h, bind_run, ih, pure_run, List.map_cons]

/-- A change that fails changes nothing. -/
theorem attempt_run (change : FileTree → Except FileError FileTree) : (attempt change).run t =
    match change t with
    | .ok t' => (.ok (), t')
    | .error e => (.error e, t) := by
  have hrun : (attempt change).run t =
      (match change t with
      | .ok t' => do
        set t'
        return .ok ()
      | .error e => return .error e : OnFileTree (Except FileError Unit)).run t := rfl
  rw [hrun]
  cases change t <;> rfl

end OnFileTree

/-! ## Steps -/

namespace Command

variable {β γ : Type} {w : List Warning} {t : FileTree}

/-- How a step ends on a tree of files: its result, all warnings so far, and the tree after it. -/
def Step.on (step : Step OnFileTree β) (w : List Warning) (t : FileTree) :
    (Except Error β × List Warning) × FileTree := (step.run.run w).run t

theorem on_bind (step : Step OnFileTree β) (next : β → Step OnFileTree γ) :
    (step >>= next).on w t =
      match step.on w t with
      | ((.ok b, w), t) => (next b).on w t
      | ((.error e, w), t) => ((.error e, w), t) := by
  have hrun : (step >>= next).on w t =
      match step.on w t with
      | ((r, w), t) => (ExceptT.bindCont next r |>.run w).run t := rfl
  rw [hrun]
  obtain ⟨⟨r, w⟩, t⟩ := step.on w t
  cases r <;> rfl

/-- A step that ends well has taken each of its steps well. -/
theorem on_bind_eq_ok {step : Step OnFileTree β} {next : β → Step OnFileTree γ} {c : γ} {w' : List Warning}
    {t' : FileTree} (h : (step >>= next).on w t = ((.ok c, w'), t')) : ∃ b w₁ t₁,
    step.on w t = ((.ok b, w₁), t₁) ∧ (next b).on w₁ t₁ = ((.ok c, w'), t') := by
  rw [on_bind] at h
  generalize step.on w t = ending at h ⊢
  obtain ⟨⟨_ | b, w₁⟩, t₁⟩ := ending
  · cases h
  · exact ⟨b, w₁, t₁, rfl, h⟩

@[simp] theorem on_pure (b : β) : (pure b : Step OnFileTree β).on w t = ((.ok b, w), t) := rfl

@[simp] theorem on_map (f : β → γ) (step : Step OnFileTree β) : (f <$> step).on w t =
    (((step.on w t).1.1.map f, (step.on w t).1.2), (step.on w t).2) := by
  rw [map_eq_pure_bind, on_bind]
  obtain ⟨⟨r, w⟩, t⟩ := step.on w t
  cases r <;> rfl

@[simp] theorem on_decided (result : Except Error β) :
    (decided result : Step OnFileTree β).on w t = ((result, w), t) := by
  cases result <;> rfl

theorem decided_eq_ok {result : Except Error β} {b : β} {w' : List Warning} {t' : FileTree}
    (h : (decided result : Step OnFileTree β).on w t = ((.ok b, w'), t')) : result = .ok b := by
  rw [on_decided] at h
  cases h
  rfl

@[simp] theorem on_liftM (action : OnFileTree β) :
    (liftM action : Step OnFileTree β).on w t = ((.ok (action.run t).1, w), (action.run t).2) := rfl

@[simp] theorem on_stored (action : OnFileTree (Except Error β)) :
    (stored action).on w t = (((action.run t).1, w), (action.run t).2) := by
  rw [stored, on_bind, on_liftM]
  exact on_decided _

end Command

end QueueBoard
