import QueueBoard.Proofs.Command.Writing
/-!
# A configuration that is saved

A valid configuration that is saved is the one that is loaded from its file, and one that cannot be saved leaves
every file as it was (`load_save`). All that can be in the way are an interval beyond the whole numbers of the
format (`isSome_toToml`) and the files themselves.
-/

namespace QueueBoard.Config

open Setting

variable {c : Config} {env : Environment.Variables} {path text : String} {t after : FileTree}

/-! ## The document -/

/-- Whether intervals are whole numbers of the format. -/
def fits (g : Timing) : Bool := Toml.fits g.tickMs && Toml.fits g.renderMs && Toml.fits g.doubleClickMs

/-- A configuration has a document unless one of its intervals is too long. -/
theorem isSome_toToml : c.toToml.isSome = fits c.timing := by
  obtain ⟨⟨width, queues, metrics, animate, output⟩, tick, render, double⟩ := c
  have hstring : ∀ s, (Toml.plainText (.string s)).isSome = true := fun _ => rfl
  have hfloat : (Toml.plainText (.float width)).isSome = true := rfl
  have hboolean : (Toml.plainText (.boolean animate)).isSome = true := rfl
  have hinteger : ∀ n : Nat, (Toml.plainText (.integer n)).isSome = Toml.fits n := by
    intro n
    rw [Toml.plainText]
    cases Toml.fits n <;> rfl
  rw [toToml, Toml.isSome_documentText]
  cases queues <;> cases metrics <;> 
    simp [toTables, fits, hstring, hfloat, hboolean, hinteger, Bool.and_assoc]

theorem isBare_key : ∀ name ∈ ["defaults", "canvas_width", "queues_file", "metrics_file", "animate", "output", "tui",
    "tick_ms", "render_ms", "double_click_ms"], Toml.IsBare name := by
  decide

theorem isWritable_toTables (hwidth : Toml.ReadsBack c.defaults.canvasWidth) :
    ∀ table ∈ c.toTables, Toml.IsWritable table := by
  obtain ⟨⟨width, queues, metrics, animate, output⟩, tick, render, double⟩ := c
  refine List.forall_mem_cons.2 ⟨⟨isBare_key _ (by simp), ?_, ?_⟩,
    List.forall_mem_singleton.2 ⟨isBare_key _ (by simp), ?_, ?_⟩⟩
  · cases queues <;> cases metrics <;> simp [DistinctNames]
  · cases queues <;> cases metrics <;> simpa [isBare_key, Toml.IsPlain] using hwidth
  · simp [DistinctNames]
  · simp [isBare_key, Toml.IsPlain]

theorem distinct_toTables : DistinctNames c.toTables := by
  show ["defaults", "tui"].Nodup
  decide

/-- The document of a configuration is read as its tables. -/
theorem parse_toToml (hwidth : Toml.ReadsBack c.defaults.canvasWidth) (h : c.toToml = some text) :
    Toml.parse text = some (c.toTables.map fun table => (table.1, .table table.2)) :=
  Toml.parse_documentText (isWritable_toTables hwidth) distinct_toTables h

/-- The tables of a configuration, over the built-in ones, are its settings. -/
theorem overlay_toTables :
    (builtIn.overlay (.table (ofMembers (c.toTables.map fun table => (table.1, .table table.2))))).overlay (.table []) =
      c.settings := by
  obtain ⟨⟨width, queues, metrics, animate, output⟩, tick, render, double⟩ := c
  cases queues <;> cases metrics <;> rfl

theorem layer_eq_nil (h : ∀ v ∈ env, Environment.path? v.1 = none) : Environment.layer env = .table [] := by
  rw [Environment.layer]
  induction env with
  | nil => rfl
  | cons v env ih =>
    obtain ⟨hv, henv⟩ := List.forall_mem_cons.1 h
    rw [List.foldl_cons]
    dsimp only
    rw [hv]
    exact ih henv

/-- What was written for a configuration is loaded as that configuration. -/
theorem load_of_write (hvalid : c.fault? = none) (hwidth : Toml.ReadsBack c.defaults.canvasWidth)
    (henv : ∀ v ∈ env, Environment.path? v.1 = none) (htext : c.toToml = some text)
    (hwrite : t.write path text = .ok after) : (load env path : OnFileTree _).run after = (.ok c, after) := by
  have hread := FileTree.read_of_write hwrite
  have hlayers : ofLayers (.table (ofMembers (c.toTables.map fun table => (table.1, .table table.2)))) (.table []) =
      .ok c := ofLayers_settings hvalid overlay_toTables
  rw [load_run, loaded, layerOf, FileTree.locate_of_read hread]
  dsimp only
  rw [hread]
  dsimp only
  rw [fileLayer, parse_toToml hwidth htext, layer_eq_nil henv]
  dsimp only [Except.bind]
  rw [hlayers]

/-- A configuration that is saved has a document, and its file was written where its directories were made. -/
theorem of_save_ok (h : (c.save path : OnFileTree _).run t = (.ok (), after)) :
    ∃ made text, t.withParents path = .ok made ∧ c.toToml = some text ∧ made.write path text = .ok after := by
  rw [Command.save_run] at h
  cases hmade : t.withParents path with
  | error e =>
    rw [hmade] at h
    cases h
  | ok made =>
    rw [hmade] at h
    cases htext : c.toToml with
    | none =>
      rw [htext] at h
      cases h
    | some text =>
      rw [htext] at h
      dsimp only at h
      cases hwrite : made.write path text with
      | error e =>
        rw [hwrite] at h
        cases h
      | ok written =>
        rw [hwrite] at h
        cases h
        exact ⟨made, text, rfl, rfl, hwrite⟩

theorem save_ok_iff : ((c.save path : OnFileTree _).run t).1 = .ok () ↔
    fits c.timing = true ∧ ∃ made, t.withParents path = .ok made ∧ made.CanWrite path := by
  rw [← isSome_toToml]
  constructor
  · intro h
    obtain ⟨made, text, hmade, htext, hwrite⟩ := of_save_ok (Prod.ext h rfl)
    exact ⟨by rw [htext]; rfl, made, hmade, FileTree.canWrite_iff.2 ⟨_, hwrite⟩⟩
  · rintro ⟨hsome, made, hmade, hcan⟩
    obtain ⟨text, htext⟩ := Option.isSome_iff_exists.1 hsome
    obtain ⟨written, hwrite⟩ := FileTree.canWrite_iff.1 hcan
    rw [Command.save_run, hmade, htext]
    dsimp only
    rw [hwrite]

/-- **A configuration that is saved is loaded again**, if its width is read back and no variable names a setting.
It is saved just if its intervals fit the format and its file can be written where its directories are made; if
not, all files are as they were. -/
theorem load_save (hvalid : c.fault? = none) (hwidth : Toml.ReadsBack c.defaults.canvasWidth)
    (henv : ∀ v ∈ env, Environment.path? v.1 = none) (path : String) (t : FileTree) :
    let result := ((c.save path : OnFileTree _).run t).1
    let after := ((c.save path : OnFileTree _).run t).2
    (result = .ok () → (load env path : OnFileTree _).run after = (.ok c, after)) ∧
      (result = .ok () ↔ fits c.timing = true ∧ ∃ made, t.withParents path = .ok made ∧ made.CanWrite path) ∧
      ∀ e, result = .error e → ∀ place, after.file? place = t.file? place := by
  intro result after
  refine ⟨fun hsaved => ?_, save_ok_iff, fun e hfailed => ?_⟩
  · obtain ⟨made, text, -, htext, hwrite⟩ := of_save_ok (Prod.ext hsaved rfl)
    exact load_of_write hvalid hwidth henv htext hwrite
  · have hkept := Command.allOrNothing_save c path t
    rwa [show ((c.save path : OnFileTree _).run t).1 = .error e from hfailed] at hkept

theorem readsBack_builtIn : Toml.ReadsBack 1600 := ⟨"1600.0", rfl, rfl⟩

/-- A file in the working directory needs no directories. -/
theorem withParents_board (t : FileTree) : t.withParents "board.toml" = .ok t := by
  have hsplit : FilePath.split "" = (false, []) := FilePath.split_intercalate [] (by decide)
  have hparent : FilePath.parent? "board.toml" = some "" := by
    rw [FilePath.parent?, FilePath.split_board]
    decide +kernel
  rw [FileTree.withParents, hparent]
  dsimp only
  rw [FileTree.makeDirectories, if_neg (by decide), hsplit]
  rfl

/-- Strings that need quotes and escapes, and an interval that is too long. -/
theorem load_save_board :
    let c : Config := { defaults := { queuesFile := some "it's \"a\"\n\\b", output := "\x07ü" } }
    let tooLong : Config := { timing := { tickMs := 9223372036854775808 } }
    let env := [("HOME", "/")]
    let t : FileTree := { files := [(["board.toml"], "[tui]\n")] }
    (c.fault? = none ∧ tooLong.fault? = none ∧ Toml.ReadsBack 1600 ∧
      ∀ v ∈ env, Environment.path? v.1 = none) ∧
    (∃ after, (c.save "board.toml" : OnFileTree _).run t = (.ok (), after) ∧
      (load env "board.toml" : OnFileTree _).run after = (.ok c, after)) ∧
    ((tooLong.save "board.toml" : OnFileTree _).run t).1 = .error .notWritable ∧
      ((tooLong.save "board.toml" : OnFileTree _).run t).2.file? ["board.toml"] = some "[tui]\n" := by
  intro c tooLong env t
  have hwidth : isWidth 1600 = true := rfl
  have hc : c.fault? = none := by simp [c, fault?, hwidth]
  have hlong : tooLong.fault? = none := by simp [tooLong, fault?, hwidth]
  have henv : ∀ v ∈ env, Environment.path? v.1 = none := by
    refine List.forall_mem_singleton.2 ?_
    decide +kernel
  have hcan : t.CanWrite "board.toml" := ⟨["board.toml"], FileTree.resolve_board rfl, rfl⟩
  obtain ⟨hloaded, hiff, -⟩ := load_save hc readsBack_builtIn henv "board.toml" t
  have hsaved := hiff.2 ⟨rfl, t, withParents_board t, hcan⟩
  have hfailed : ((tooLong.save "board.toml" : OnFileTree _).run t).1 = .error .notWritable := by
    have hnone : tooLong.toToml = none := by
      rw [← Option.isNone_iff_eq_none, ← Option.not_isSome, isSome_toToml]
      rfl
    rw [Command.save_run, withParents_board]
    dsimp only
    rw [hnone]
  obtain ⟨-, -, hkept⟩ := load_save hlong readsBack_builtIn henv "board.toml" t
  exact ⟨⟨hc, hlong, readsBack_builtIn, henv⟩, ⟨_, Prod.ext hsaved rfl, hloaded hsaved⟩, hfailed,
    hkept _ hfailed ["board.toml"]⟩

end QueueBoard.Config
