import QueueBoard.Main
import QueueBoard.Proofs.Arguments.Reading
import QueueBoard.Proofs.Command.Configuration
import QueueBoard.Proofs.Files.Growing
/-!
# What a program writes

A step before the last one of a command only looks at the files (`Step.ReadOnly`); the last one writes one file at
most, and none if it fails (`Step.Writes`). So a program that fails has printed nothing and changed no file, and
one that succeeds has changed no file but the one it was asked for (`runLine_changes`).
-/

namespace QueueBoard.Command

variable {β γ : Type} {env : Config.Environment.Variables} {g : Globals} {c : Context} {w w' : List Warning}
  {t t' : FileTree} {target : Option String} {place : List String}

/-! ## Steps that only look -/

/-- A step that leaves the files as they are. -/
def Step.ReadOnly (step : Step OnFileTree β) : Prop := ∀ w t, (step.on w t).2 = t

/-- What follows a step that only looks starts from the same files. -/
theorem Step.ReadOnly.on_bind {step : Step OnFileTree β} (h : step.ReadOnly) (next : β → Step OnFileTree γ)
    (w : List Warning) (t : FileTree) :
    (∃ e w', (step >>= next).on w t = ((.error e, w'), t)) ∨
      ∃ b w', (step >>= next).on w t = (next b).on w' t := by
  have ht := h w t
  rw [Command.on_bind]
  rcases hstep : step.on w t with ⟨⟨result, w'⟩, t'⟩
  rw [hstep] at ht
  have ht : t' = t := ht
  rw [ht]
  cases result with
  | error e => exact Or.inl ⟨e, w', rfl⟩
  | ok b => exact Or.inr ⟨b, w', rfl⟩

/-- A step that ended well after one that only looks started from the same files. -/
theorem Step.ReadOnly.bind_eq_ok {step : Step OnFileTree β} {next : β → Step OnFileTree γ} {c : γ}
    (hreads : step.ReadOnly) (h : (step >>= next).on w t = ((.ok c, w'), t')) : ∃ b w₁,
    step.on w t = ((.ok b, w₁), t) ∧ (next b).on w₁ t = ((.ok c, w'), t') := by
  obtain ⟨b, w₁, t₁, hstep, hnext⟩ := on_bind_eq_ok h
  have ht : t₁ = t := by rw [← hreads w t, hstep]
  exact ⟨b, w₁, ht ▸ hstep, ht ▸ hnext⟩

theorem readOnly_bind {step : Step OnFileTree β} {next : β → Step OnFileTree γ} (h : step.ReadOnly)
    (hnext : ∀ b, (next b).ReadOnly) : (step >>= next).ReadOnly := by
  intro w t
  rcases h.on_bind next w t with ⟨e, w', hrun⟩ | ⟨b, w', hrun⟩
  · rw [hrun]
  · rw [hrun]
    exact hnext b w' t

theorem readOnly_pure (b : β) : (pure b : Step OnFileTree β).ReadOnly := fun _ _ => rfl

theorem readOnly_decided (result : Except Error β) : (decided result : Step OnFileTree β).ReadOnly := by
  intro w t
  rw [on_decided]

theorem readOnly_warn (warnings : List Warning) : (warn warnings : Step OnFileTree Unit).ReadOnly := fun _ _ => rfl

theorem readOnly_drawn (d : QueueDashboard Float) : (drawn d : Step OnFileTree _).ReadOnly :=
  readOnly_bind (readOnly_warn _) fun _ => readOnly_pure d

theorem readOnly_foldlM {next : γ → β → Step OnFileTree γ} (h : ∀ c b, (next c b).ReadOnly) (bs : List β) (c : γ) :
    (bs.foldlM next c).ReadOnly := by
  induction bs generalizing c with
  | nil => exact readOnly_pure c
  | cons b bs ih =>
    rw [List.foldlM_cons]
    exact readOnly_bind (h c b) ih

/-- Whatever is done with a file that is read, reading it changes nothing. -/
theorem readOnly_stored {action : OnFileTree (Except Error β)} (h : ∀ t, (action.run t).2 = t) :
    (stored action).ReadOnly := by
  intro w t
  rw [on_stored]
  exact h t

theorem readOnly_loadQueues (input : Option String) : (loadQueues c input : Step OnFileTree _).ReadOnly :=
  readOnly_bind (readOnly_decided _) fun _ => readOnly_stored fun _ => rfl

theorem readOnly_loadMetrics (input : Option String) : (loadMetrics c input : Step OnFileTree _).ReadOnly :=
  readOnly_bind (readOnly_decided _) fun _ => readOnly_stored fun _ => rfl

theorem readOnly_loadConfig : (loadConfig env g : Step OnFileTree _).ReadOnly := by
  intro w t
  rw [loadConfig_on]

theorem readOnly_dashboard (records : List (QueueRecord Float)) (fold : List String) :
    (dashboard c records fold : Step OnFileTree _).ReadOnly :=
  readOnly_bind (readOnly_decided _) fun _ => readOnly_bind (readOnly_warn _) fun _ =>
    readOnly_bind (readOnly_drawn _) fun _ => readOnly_bind (readOnly_decided _) fun _ =>
      readOnly_foldlM (fun _ _ => readOnly_drawn _) _ _

theorem readOnly_selected (d : QueueDashboard Float) (select : Option String) :
    (selected d select : Step OnFileTree _).ReadOnly := by
  cases select with
  | none => exact readOnly_pure d
  | some name => exact readOnly_bind (readOnly_decided _) fun _ => readOnly_drawn _

theorem readOnly_printConfig : (printConfig env g : Step OnFileTree _).ReadOnly := by
  intro w t
  rw [printConfig, on_bind, on_liftM, OnFileTree.entryExists_run]
  dsimp only
  by_cases hexists : t.entryExists (configFile env g) = true
  · rw [if_pos hexists, on_bind, on_stored, OnFileTree.bind_run, Config.load_run]
    dsimp only [OnFileTree.pure_run]
    cases Config.loaded env t (configFile env g) with
    | error e => rfl
    | ok config =>
      dsimp only [Except.mapError]
      cases config.toToml <;> rfl
  · rw [if_neg hexists, on_bind, on_pure]
    dsimp only
    cases ({} : Config).toToml <;> rfl

/-! ## Steps that write -/

/-- All or nothing: what fails changes no file, and what succeeds changes no file but the one at a path, if there
is one. -/
def AllOrNothing {ε : Type} (target : Option String) (t : FileTree) : Except ε β → FileTree → Prop
  | .error _, after => ∀ place, after.file? place = t.file? place
  | .ok _, after => ∀ place, after.file? place ≠ t.file? place →
      ∃ path, target = some path ∧ after.resolve path = .ok place

theorem allOrNothing_refl {ε : Type} (result : Except ε β) : AllOrNothing target t result t := by
  cases result with
  | error e => exact fun _ => rfl
  | ok b => exact fun _ hchange => absurd rfl hchange

theorem AllOrNothing.mapError {ε δ : Type} {result : Except ε β} (h : AllOrNothing target t result t')
    (f : ε → δ) : AllOrNothing target t (result.mapError f) t' := by
  cases result <;> exact h

/-- A step that is all or nothing. -/
def Step.Writes (target : Option String) (step : Step OnFileTree β) : Prop :=
  ∀ w t, AllOrNothing target t (step.on w t).1.1 (step.on w t).2

theorem Step.ReadOnly.writes {step : Step OnFileTree β} (h : step.ReadOnly) : step.Writes target := by
  intro w t
  rw [h w t]
  exact allOrNothing_refl _

/-- What is looked at before does not matter. -/
theorem Step.ReadOnly.bind_writes {step : Step OnFileTree β} {next : β → Step OnFileTree γ} (h : step.ReadOnly)
    (hnext : ∀ b, (next b).Writes target) : (step >>= next).Writes target := by
  intro w t
  rcases h.on_bind next w t with ⟨e, w', hrun⟩ | ⟨b, w', hrun⟩
  · rw [hrun]
    exact allOrNothing_refl _
  · rw [hrun]
    exact hnext b w' t

/-- What is said after it does not matter. -/
theorem Step.Writes.bind_pure {step : Step OnFileTree β} (h : step.Writes target) (next : β → γ) :
    (step >>= fun b => pure (next b)).Writes target := by
  intro w t
  have hstep := h w t
  rw [on_bind]
  generalize step.on w t = ending at hstep ⊢
  obtain ⟨⟨result, w'⟩, t'⟩ := ending
  cases result <;> exact hstep

theorem writes_stored {action : OnFileTree (Except FileError β)} {f : FileError → Error}
    (h : ∀ t, AllOrNothing target t (action.run t).1 (action.run t).2) :
    (stored do return (← action).mapError f).Writes target := by
  intro w t
  rw [on_stored]
  exact (h t).mapError f

/-! ## Files that are written -/

theorem write_run (path text : String) : (FileStore.write path text : OnFileTree _).run t =
    match t.write path text with
    | .ok t' => (.ok (), t')
    | .error e => (.error e, t) := OnFileTree.attempt_run _

theorem makeDirectories_run (path : String) : (FileStore.makeDirectories path : OnFileTree _).run t =
    match t.makeDirectories path with
    | .ok t' => (.ok (), t')
    | .error e => (.error e, t) := OnFileTree.attempt_run _

theorem allOrNothing_write (path text : String) (t : FileTree) :
    AllOrNothing (some path) t ((FileStore.write path text : OnFileTree _).run t).1
      ((FileStore.write path text : OnFileTree _).run t).2 := by
  rw [write_run]
  cases hwrite : t.write path text with
  | error e => exact allOrNothing_refl _
  | ok after => exact fun place hchange => ⟨path, rfl, FileTree.write_changes hwrite hchange⟩

theorem writes_publish (picture : PictureOptions) (scene : Scene Float) :
    (publish c picture scene : Step OnFileTree _).Writes picture.out := by
  rw [publish]
  cases picture.out with
  | none => exact (readOnly_pure _).writes
  | some path => exact (writes_stored (allOrNothing_write path _)).bind_pure _

/-- How saving the configuration ends: directories are made, and then the file is written. -/
theorem save_run (config : Config) (path : String) (t : FileTree) :
    (config.save path : OnFileTree _).run t =
      match t.withParents path with
      | .error e => (.error (.file e), t)
      | .ok made =>
        match config.toToml with
        | none => (.error .notWritable, made)
        | some text =>
          match made.write path text with
          | .error e => (.error (.file e), made)
          | .ok after => (.ok (), after) := by
  have written : ∀ made : FileTree, (match config.toToml with
      | none => return .error .notWritable
      | some text => do return (← FileStore.write path text).mapError .file :
        OnFileTree (Except Config.Error Unit)).run made =
      match config.toToml with
      | none => ((.error .notWritable, made) : Except Config.Error Unit × FileTree)
      | some text =>
        match made.write path text with
        | .error e => (.error (.file e), made)
        | .ok after => (.ok (), after) := by
    intro made
    cases config.toToml with
    | none => rfl
    | some text =>
      dsimp only
      rw [OnFileTree.bind_run, write_run]
      cases made.write path text <;> rfl
  rw [Config.save, FileTree.withParents]
  cases FilePath.parent? path with
  | none => exact written t
  | some directory =>
    dsimp only
    rw [OnFileTree.bind_run, makeDirectories_run]
    cases t.makeDirectories directory with
    | error e => rfl
    | ok made => exact written made

/-- Nothing or directories are made, and then the file is written or not. -/
theorem save_cases (config : Config) (path : String) (t : FileTree) :
    ∃ made, t.Grows made ∧
      ((∃ e, (config.save path : OnFileTree _).run t = (.error e, made)) ∨
        ∃ text after, made.write path text = .ok after ∧
          (config.save path : OnFileTree _).run t = (.ok (), after)) := by
  rw [save_run]
  cases hmade : t.withParents path with
  | error e => exact ⟨t, .refl t, Or.inl ⟨_, rfl⟩⟩
  | ok made =>
    refine ⟨made, FileTree.withParents_grows hmade, ?_⟩
    dsimp only
    cases config.toToml with
    | none => exact Or.inl ⟨_, rfl⟩
    | some text =>
      dsimp only
      cases hwrite : made.write path text with
      | error e => exact Or.inl ⟨_, rfl⟩
      | ok after => exact Or.inr ⟨text, after, hwrite, rfl⟩

theorem allOrNothing_save (config : Config) (path : String) (t : FileTree) :
    AllOrNothing (some path) t ((config.save path : OnFileTree _).run t).1
      ((config.save path : OnFileTree _).run t).2 := by
  obtain ⟨made, hgrows, ⟨e, hrun⟩ | ⟨text, after, hwrite, hrun⟩⟩ := save_cases config path t
  · rw [hrun]
    exact hgrows.file?
  · rw [hrun]
    intro place hchange
    rw [← hgrows.file?] at hchange
    exact ⟨path, rfl, FileTree.write_changes hwrite hchange⟩

/-- Where there is nothing at the path, saving changes an existing file only if the path was not found for want of
a directory and turns back on its way. -/
theorem save_keeps (henclosed : t.Enclosed) {path text : String} (hnone : t.entryExists path = false) (config : Config)
    (hfile : t.file? place = some text) :
    ((config.save path : OnFileTree _).run t).2.file? place = some text ∨
      (t.resolve path = .error .notFound ∧ ".." ∈ (FilePath.split path).2) := by
  obtain ⟨made, hgrows, ⟨e, hrun⟩ | ⟨written, after, hwrite, hrun⟩⟩ := save_cases config path t
  · rw [hrun]
    exact Or.inl (by rw [hgrows.file?, hfile])
  · rw [hrun]
    obtain ⟨target, htarget, -, rfl⟩ := FileTree.write_ok hwrite
    by_cases hplace : place = target
    · rw [← hplace] at htarget
      cases hresolve : t.resolve path with
      | ok before =>
        have hsame := hgrows.resolve_ok hresolve
        rw [htarget] at hsame
        cases hsame
        rw [FileTree.entryExists, hresolve] at hnone
        simp [hfile] at hnone
      | error e =>
        obtain ⟨rfl, hback⟩ := hgrows.turns_back henclosed hresolve htarget hfile
        exact Or.inr ⟨rfl, hback⟩
    · exact Or.inl (by rw [FileTree.file?_putFile, if_neg hplace, hgrows.file?, hfile])

/-! ## Commands -/

theorem writeConfig_on (force : Bool) : (writeConfig env g force).on w t =
    if t.entryExists (configFile env g) && !force then ((.error (.configExists (configFile env g)), w), t)
    else
      match (Config.save {} (configFile env g) : OnFileTree _).run t with
      | (.ok (), after) => ((.ok { notice := notice g "Created" (configFile env g) }, w), after)
      | (.error e, after) => ((.error (.config e), w), after) := by
  rw [writeConfig, on_bind, on_liftM, OnFileTree.entryExists_run]
  dsimp only
  cases hpresent : t.entryExists (configFile env g) && !force with
  | true => rfl
  | false =>
    rw [if_neg Bool.false_ne_true, if_neg Bool.false_ne_true, on_bind, on_stored, OnFileTree.bind_run]
    rcases (Config.save {} (configFile env g) : OnFileTree _).run t with ⟨result, after⟩
    cases result <;> rfl

theorem writes_writeConfig (force : Bool) :
    (writeConfig env g force : Step OnFileTree _).Writes (some (configFile env g)) := by
  intro w t
  have hsave := allOrNothing_save {} (configFile env g) t
  rw [writeConfig_on]
  split
  · exact allOrNothing_refl _
  · generalize (Config.save {} (configFile env g) : OnFileTree _).run t = saved at hsave ⊢
    obtain ⟨result, after⟩ := saved
    cases result <;> exact hsave

/-- An existing file is changed only if the path was not found for want of a directory and turns back on its way. -/
theorem writeConfig_keeps (henclosed : t.Enclosed) {text : String} (hfile : t.file? place = some text) :
    ((writeConfig env g false : Step OnFileTree _).on w t).2.file? place = some text ∨
      (t.resolve (configFile env g) = .error .notFound ∧ ".." ∈ (FilePath.split (configFile env g)).2) := by
  rw [writeConfig_on]
  cases hpresent : t.entryExists (configFile env g) with
  | true => exact Or.inl hfile
  | false =>
    have hsave := save_keeps henclosed hpresent {} hfile
    rw [Bool.false_and, if_neg Bool.false_ne_true]
    generalize (Config.save {} (configFile env g) : OnFileTree _).run t = saved at hsave ⊢
    obtain ⟨result, after⟩ := saved
    cases result <;> exact hsave

/-- The file that a command is to write. -/
def target? (env : Config.Environment.Variables) (g : Globals) : Command → Option String
  | .renderQueues _ picture _ _ | .renderCluster _ picture => picture.out
  | .initConfig _ => some (configFile env g)
  | .layoutQueues .. | .listQueues _ | .listCharts .. | .showCluster _ | .showConfig | .configPath => none

theorem writes_runSnapshot (command : Command) (h : ∀ force, command ≠ .initConfig force) :
    (runSnapshot c command : Step OnFileTree _).Writes (target? env g command) := by
  cases command with
  | renderQueues input picture select fold =>
    exact (readOnly_loadQueues input).bind_writes fun records => (readOnly_dashboard records fold).bind_writes fun d =>
      (readOnly_selected d select).bind_writes fun d => writes_publish picture d.scene
  | layoutQueues input fold =>
    exact ((readOnly_bind (readOnly_loadQueues input) fun _ => readOnly_bind (readOnly_warn _) fun _ =>
      readOnly_bind (readOnly_decided _) fun _ => readOnly_bind (readOnly_warn _) fun _ => readOnly_pure _)).writes
  | listQueues input => exact (readOnly_bind (readOnly_loadQueues input) fun _ => readOnly_pure _).writes
  | listCharts input select =>
    exact (readOnly_bind (readOnly_loadQueues input) fun records =>
      readOnly_bind (readOnly_dashboard records []) fun d =>
        readOnly_bind (readOnly_selected d select) fun _ => readOnly_pure _).writes
  | renderCluster input picture =>
    exact (readOnly_loadMetrics input).bind_writes fun metrics => (readOnly_decided _).bind_writes fun width =>
      writes_publish picture _
  | showCluster input =>
    exact (readOnly_bind (readOnly_loadMetrics input) fun _ =>
      readOnly_bind (readOnly_decided _) fun _ => readOnly_pure _).writes
  | initConfig force => exact absurd rfl (h force)
  | showConfig => exact (readOnly_pure _).writes
  | configPath => exact (readOnly_pure _).writes

theorem writes_run (command : Command) : (run env g command : Step OnFileTree _).Writes (target? env g command) := by
  cases command with
  | initConfig force => exact writes_writeConfig force
  | showConfig => exact readOnly_printConfig.writes
  | configPath => exact (readOnly_pure _).writes
  | renderQueues | layoutQueues | listQueues | listCharts | renderCluster | showCluster =>
    exact readOnly_loadConfig.bind_writes fun config => writes_runSnapshot _ (by simp)

/-! ## Programs -/

theorem runLine_run (words : List String) : (runLine env words : OnFileTree Outcome).run t =
    match parse (Config.Environment.lookup env) words with
    | .error fault => ({ failure := some (.usage fault) }, t)
    | .ok (g, command) =>
      let filter := LogFilter.choose (Config.Environment.lookup env "RUST_LOG") g.verbosity
      match (run env g command).on [] t with
      | ((.ok printed, warnings), after) => ({ printed, log := filter.lines warnings }, after)
      | ((.error cause, warnings), after) =>
        ({ log := filter.lines warnings, failure := some (.command cause) }, after) := by
  rw [runLine]
  cases parse (Config.Environment.lookup env) words with
  | error fault => rfl
  | ok parsed =>
    obtain ⟨g, command⟩ := parsed
    have hon : ((run env g command : Step OnFileTree _).run.run []).run t = (run env g command).on [] t := rfl
    dsimp only
    rw [OnFileTree.bind_run, hon]
    rcases (run env g command : Step OnFileTree _).on [] t with ⟨⟨result, warnings⟩, after⟩
    cases result <;> rfl

theorem exitCode_ne_zero (cause : Error) : cause.exitCode ≠ 0 := by
  cases cause <;> simp [Error.exitCode]

/-- A mistake in the words is told on the error output only. -/
theorem standardOutput_usage {fault : Arguments.Fault}
    (h : ({ failure := some (.usage fault) } : Outcome).exitCode ≠ 0) :
    ({ failure := some (.usage fault) } : Outcome).standardOutput = "" := by
  cases fault <;> first | rfl | exact absurd rfl h

/-! ## Asking for a configuration -/

open Arguments

/-- The level of the command that writes a configuration. -/
def initLevel : Level := level (program ++ "-config-") "init" [] [{ name := "force", takes := .flag }] []

/-- The option for the path of the configuration. -/
def configSwitch : Switch := { name := "config", takes := .one .path, envName := some "QUEUESCOPE_CONFIG" }

/-- Words that ask for a configuration at a path. -/
theorem parse_init {path : String} {first : Char} {rest : List Char} (hpath : path.toList = first :: rest)
    (hfirst : first ≠ '-') : parse (Config.Environment.lookup []) ["config", "init", "--config", path] =
      .ok ({ config := some path }, .initConfig false) := by
  have hconfig : grammar.find? "config" = some (level (program ++ "-") "config" [] [] configLevels) := rfl
  have hinit : (level (program ++ "-") "config" [] [] configLevels).find? "init" = some initLevel := rfl
  have hdashes : "--config".toList = ['-', '-', 'c', 'o', 'n', 'f', 'i', 'g'] := by decide
  have hempty : path.isEmpty = false := by
    rw [Bool.eq_false_iff]
    intro hempty
    rw [String.isEmpty_iff.1 hempty] at hpath
    cases hpath
  have hsettle : Progress.settle { pending := some (configSwitch, some path) } =
      .ok { given := [⟨"config", [path], .commandLine⟩] } := by
    simp [Progress.settle, Progress.keep, configSwitch, Progress.has, ValueKind.fault?, hempty, Progress.add]
  have hwords : readWords (Config.Environment.lookup []) initLevel {} ["--config", path] =
      .ok { levels := [[⟨"config", [path], .commandLine⟩]] } := by
    have hswitch : initLevel.long? (String.ofList ['c', 'o', 'n', 'f', 'i', 'g']) = some configSwitch := by decide
    rw [readWords_long_value rfl rfl rfl rfl hpath hfirst hdashes (by simp) hswitch]
    rw [readWords, finish, hsettle]
    rfl
  have hread : Arguments.read (Config.Environment.lookup []) grammar ["config", "init", "--config", path] =
      .ok { path := ["config", "init"], levels := [[], [], [⟨"config", [path], .commandLine⟩]] } := by
    rw [Arguments.read, readWords_inner rfl hconfig, readWords_inner rfl hinit, hwords]
    rfl
  rw [parse, hread]
  rfl

/-- A tree of one file in the working directory. -/
theorem enclosed_board (text : String) : ({ files := [(["board.toml"], text)] } : FileTree).Enclosed where
  file_above place found h := by
    have hplace : place = ["board.toml"] := by
      by_contra hne
      have hlookup : ((place == ["board.toml"]) : Bool) = false := by simpa using hne
      rw [FileTree.file?, List.lookup_cons, hlookup] at h
      cases h
    rw [hplace]
    rfl
  directory_above place h := by
    have hplace : place = [] := by simpa [FileTree.isDirectory] using h
    rw [hplace]
    rfl

/-! ## What a program changes -/

/-- **A program that fails has printed nothing and changed no file. One that succeeds has changed no file but the
one that the command is to write.** The configuration is not written over an existing file unless forced, but for
one case: the path is not found for want of a directory, and turns back on its way. -/
theorem runLine_changes (env : Config.Environment.Variables) (words : List String) (t : FileTree) :
    let outcome := ((runLine env words : OnFileTree Outcome).run t).1
    let after := ((runLine env words : OnFileTree Outcome).run t).2
    (outcome.exitCode ≠ 0 →
      outcome.standardOutput = "" ∧ ∀ place, after.file? place = t.file? place) ∧
    (outcome.exitCode = 0 → ∀ place, after.file? place ≠ t.file? place →
      ∃ g command path, parse (Config.Environment.lookup env) words = .ok (g, command) ∧
        target? env g command = some path ∧ after.resolve path = .ok place) ∧
    ∀ g, parse (Config.Environment.lookup env) words = .ok (g, .initConfig false) → t.Enclosed →
      ∀ place text, t.file? place = some text → after.file? place = some text ∨
        (t.resolve (configFile env g) = .error .notFound ∧ ".." ∈ (FilePath.split (configFile env g)).2) := by
  rw [runLine_run]
  dsimp only
  cases hparse : parse (Config.Environment.lookup env) words with
  | error fault =>
    refine ⟨fun hcode => ⟨standardOutput_usage hcode, fun _ => rfl⟩, fun _ _ hchange => absurd rfl hchange, ?_⟩
    intro g hinit
    cases hinit
  | ok parsed =>
    obtain ⟨g, command⟩ := parsed
    have hwrites : (run env g command : Step OnFileTree _).Writes (target? env g command) := writes_run command
    have hwrites := hwrites [] t
    have hinit : ∀ g', Except.ok (g, command) = (.ok (g', .initConfig false) : Except Arguments.Fault _) →
        t.Enclosed → ∀ place text, t.file? place = some text →
          ((run env g command : Step OnFileTree _).on [] t).2.file? place = some text ∨
            (t.resolve (configFile env g') = .error .notFound ∧ ".." ∈ (FilePath.split (configFile env g')).2) := by
      intro g' hcommand henclosed place text hfile
      cases hcommand
      exact writeConfig_keeps henclosed hfile
    dsimp only
    generalize (run env g command : Step OnFileTree _).on [] t = ending at hwrites hinit ⊢
    obtain ⟨⟨result, warnings⟩, after⟩ := ending
    cases result with
    | error cause =>
      exact ⟨fun _ => ⟨rfl, hwrites⟩, fun hcode => absurd hcode (exitCode_ne_zero cause), hinit⟩
    | ok printed =>
      refine ⟨fun hcode => absurd rfl hcode, fun _ place hchange => ?_, hinit⟩
      obtain ⟨path, htarget, hplace⟩ := hwrites place hchange
      exact ⟨g, command, path, rfl, htarget, hplace⟩

/-- A configuration that is there is kept. -/
theorem runLine_changes_board :
    let t : FileTree := { files := [(["board.toml"], "[tui]\n")] }
    let words := ["config", "init", "--config", "board.toml"]
    let outcome := ((runLine [] words : OnFileTree Outcome).run t).1
    parse (Config.Environment.lookup []) words = .ok ({ config := some "board.toml" }, .initConfig false) ∧
      t.Enclosed ∧ outcome.exitCode = 2 ∧ outcome.standardOutput = "" ∧
      ((runLine [] words : OnFileTree Outcome).run t).2.file? ["board.toml"] = some "[tui]\n" := by
  intro t words outcome
  have hpath : "board.toml".toList = 'b' :: "oard.toml".toList := by decide
  have hparse : parse (Config.Environment.lookup []) words =
      .ok ({ config := some "board.toml" }, .initConfig false) := parse_init hpath (by decide)
  have hpresent : t.entryExists "board.toml" = true := by
    rw [FileTree.entryExists, FileTree.resolve_board rfl]
    rfl
  have hcode : outcome.exitCode = 2 := by
    have hrun : (run [] { config := some "board.toml" } (.initConfig false) : Step OnFileTree _).on [] t =
        ((.error (.configExists "board.toml"), []), t) := by
      show (writeConfig _ _ _ : Step OnFileTree _).on [] t = _
      rw [writeConfig_on]
      exact if_pos (by rw [Bool.not_false, Bool.and_true]; exact hpresent)
    show ((runLine [] words : OnFileTree Outcome).run t).1.exitCode = 2
    rw [runLine_run, hparse]
    dsimp only
    rw [hrun]
    rfl
  obtain ⟨hfailed, -, -⟩ := runLine_changes [] words t
  obtain ⟨houtput, hkept⟩ := hfailed (by show outcome.exitCode ≠ 0; omega)
  exact ⟨hparse, enclosed_board _, hcode, houtput, by rw [hkept]; rfl⟩

/-- The path of a file beside a directory. -/
theorem split_newBoard : FilePath.split "new/../board.toml" = (false, ["new", "..", "board.toml"]) :=
  FilePath.split_intercalate ["new", "..", "board.toml"] (by decide)

theorem parent?_newBoard : FilePath.parent? "new/../board.toml" = some "new/.." := by
  rw [FilePath.parent?, split_newBoard]
  decide +kernel

/-- A path that turns back at a missing directory: an existing configuration is written over, though that is not
forced. -/
theorem writeConfig_turns_back :
    let t : FileTree := { files := [(["board.toml"], "[defaults]\nanimate = false\n")] }
    let words := ["config", "init", "--config", "new/../board.toml"]
    let outcome := ((runLine [] words : OnFileTree Outcome).run t).1
    parse (Config.Environment.lookup []) words = .ok ({ config := some "new/../board.toml" }, .initConfig false) ∧
      t.Enclosed ∧ outcome.exitCode = 0 ∧ t.file? ["board.toml"] = some "[defaults]\nanimate = false\n" ∧
      ((runLine [] words : OnFileTree Outcome).run t).2.file? ["board.toml"] = ({} : Config).toToml ∧
      ({} : Config).toToml ≠ some "[defaults]\nanimate = false\n" := by
  intro t words outcome
  have hparse : parse (Config.Environment.lookup []) words =
      .ok ({ config := some "new/../board.toml" }, .initConfig false) :=
    parse_init (by decide : "new/../board.toml".toList = 'n' :: "ew/../board.toml".toList) (by decide)
  have hbuiltIn : ({} : Config).toToml = _ := Config.toToml_builtIn true
  obtain ⟨text, htext⟩ : ∃ text, ({} : Config).toToml = some text := ⟨_, hbuiltIn⟩
  have hresolve : t.resolve "new/../board.toml" = .error .notFound := by
    rw [FileTree.resolve, if_neg (by decide), if_neg (by decide), split_newBoard]
    rfl
  have habsent : t.entryExists "new/../board.toml" = false := by rw [FileTree.entryExists, hresolve]
  let made : FileTree := { t with directories := [["new"]] }
  have hmade : t.makeDirectories "new/.." = .ok made := by
    have hsplit : FilePath.split "new/.." = (false, ["new", ".."]) :=
      FilePath.split_intercalate ["new", ".."] (by decide)
    rw [FileTree.makeDirectories, if_neg (by decide), hsplit]
    rfl
  have hwrite : made.write "new/../board.toml" text = .ok (made.putFile ["board.toml"] text) := by
    have hthere : made.resolve "new/../board.toml" = .ok ["board.toml"] := by
      rw [FileTree.resolve, if_neg (by decide), if_neg (by decide), split_newBoard]
      rfl
    rw [FileTree.write, hthere]
    rfl
  have hsave : (Config.save {} "new/../board.toml" : OnFileTree _).run t =
      (.ok (), made.putFile ["board.toml"] text) := by
    rw [Config.save, parent?_newBoard]
    dsimp only
    rw [OnFileTree.bind_run, makeDirectories_run, hmade]
    dsimp only
    rw [htext]
    dsimp only
    rw [OnFileTree.bind_run, write_run, hwrite]
    rfl
  have hrun : (run [] { config := some "new/../board.toml" } (.initConfig false) : Step OnFileTree _).on [] t =
      ((.ok { notice := notice { config := some "new/../board.toml" } "Created" "new/../board.toml" }, []),
        made.putFile ["board.toml"] text) := by
    have hpath : configFile [] { config := some "new/../board.toml" } = "new/../board.toml" := rfl
    show (writeConfig _ _ _ : Step OnFileTree _).on [] t = _
    rw [writeConfig_on, hpath, habsent, Bool.false_and, if_neg Bool.false_ne_true, hsave]
  obtain ⟨printed, log, hline⟩ : ∃ printed log,
      (runLine [] words : OnFileTree Outcome).run t = ({ printed, log }, made.putFile ["board.toml"] text) := by
    rw [runLine_run, hparse]
    dsimp only
    rw [hrun]
    exact ⟨_, _, rfl⟩
  refine ⟨hparse, enclosed_board _, ?_, rfl, ?_, ?_⟩
  · show ((runLine [] words : OnFileTree Outcome).run t).1.exitCode = 0
    rw [hline]
    rfl
  · rw [hline, htext]
    rfl
  · rw [hbuiltIn]
    decide +kernel

end QueueBoard.Command
