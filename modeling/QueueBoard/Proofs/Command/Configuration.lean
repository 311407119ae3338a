import QueueBoard.Proofs.Command.Step
import QueueBoard.Proofs.Files.Growing
import QueueBoard.Proofs.Toml.RoundTrip
/-!
# The configuration that is shown

Commands on snapshots take the configuration from its file and the environment, and a file that is not there is
no error. The command that shows it does the same if there is something at the path of the file; if not, it
shows the built-in configuration and passes the environment over (`printConfig_told`).
-/

namespace QueueBoard

theorem FileTree.read_of_no_files {t : FileTree} (h : t.files = []) (path : String) :
    ∃ e, t.read path = .error e := by
  rw [FileTree.read]
  cases t.resolve path with
  | error e => exact ⟨e, rfl⟩
  | ok place =>
    have hfile : t.file? place = none := by rw [FileTree.file?, h]; rfl
    by_cases hplace : t.isDirectory place = true
    · refine ⟨.isDirectory, ?_⟩
      show (if t.isDirectory place = true then _ else _) = _
      rw [if_pos hplace]
      rfl
    · refine ⟨.notFound, ?_⟩
      show (if t.isDirectory place = true then _ else _) = _
      rw [if_neg hplace]
      simp only [hfile]
      rfl

theorem FileTree.locate_of_no_files {t : FileTree} (h : t.files = []) (path : String) :
    t.locate path = none := by
  have hfile : ∀ path, t.isFile path = false := by
    intro path
    obtain ⟨e, he⟩ := read_of_no_files h path
    rw [FileTree.isFile, he]
    rfl
  simp [FileTree.locate, hfile]

/-- The path of a file in the working directory. -/
theorem FilePath.split_board : split "board.toml" = (false, ["board.toml"]) :=
  split_intercalate ["board.toml"] (by decide)

theorem FileTree.resolve_board {t : FileTree} (h : t.workingDirectory = []) :
    t.resolve "board.toml" = .ok ["board.toml"] := by
  rw [FileTree.resolve, if_neg (by decide), if_neg (by decide), FilePath.split_board]
  simp [h, FileTree.step, FileTree.isDirectory]
  decide

namespace Config

open Setting (asRecord setMembers sorted within)

variable {env : Environment.Variables} {path : String} {t : FileTree}

/-! ## Loading -/

/-- The layer of a file of a tree. -/
def layerOf (t : FileTree) (path : String) : Except Error Setting :=
  match t.locate path with
  | none => .ok (.table [])
  | some found =>
    match t.read found with
    | .ok text => fileLayer text
    | .error _ => .error .malformed

theorem readLayer_run : (readLayer path : OnFileTree _).run t = (layerOf t path, t) := by
  rw [readLayer, OnFileTree.bind_run, OnFileTree.locate_run, layerOf]
  cases t.locate path with
  | none => rfl
  | some found =>
    dsimp only
    rw [OnFileTree.bind_run, OnFileTree.read_run]
    cases t.read found <;> rfl

/-- The configuration of a file of a tree and the environment. -/
def loaded (env : Environment.Variables) (t : FileTree) (path : String) : Except Error Config :=
  (layerOf t path).bind fun layer => ofLayers layer (Environment.layer env)

/-- Loading changes nothing. -/
theorem load_run : (load env path : OnFileTree _).run t = (loaded env t path, t) := by
  rw [load, OnFileTree.bind_run, readLayer_run, loaded]
  cases layerOf t path <;> rfl

/-! ## The settings of a configuration -/

theorem sorted_defaults (width queues metrics animate output : Setting) :
    sorted [("canvas_width", width), ("queues_file", queues), ("metrics_file", metrics), ("animate", animate),
      ("output", output)] =
    [("animate", animate), ("canvas_width", width), ("metrics_file", metrics), ("output", output),
      ("queues_file", queues)] := by
  simp [sorted, List.mergeSort]

theorem sorted_timing (tick render double : Setting) :
    sorted [("tick_ms", tick), ("render_ms", render), ("double_click_ms", double)] =
      [("double_click_ms", double), ("render_ms", render), ("tick_ms", tick)] := by
  simp [sorted, List.mergeSort]

theorem sorted_tables (defaults tui : Setting) :
    sorted [("defaults", defaults), ("tui", tui)] = [("defaults", defaults), ("tui", tui)] := by
  simp [sorted, List.mergeSort]

/-- A setting that may have no value. -/
def optionalText : Option String → Setting
  | some s => .text s
  | none => .unset

theorem asRecord_defaults (d : Defaults) : asRecord defaultKeys {} (.table [("canvas_width", .number d.canvasWidth),
    ("queues_file", optionalText d.queuesFile), ("metrics_file", optionalText d.metricsFile),
    ("animate", .flag d.animate), ("output", .text d.output)]) = .ok d := by
  obtain ⟨width, queues, metrics, animate, output⟩ := d
  rw [asRecord, sorted_defaults]
  cases queues <;> cases metrics <;> rfl

theorem asRecord_timing (g : Timing) : asRecord timingKeys {} (.table [("tick_ms", .whole g.tickMs),
    ("render_ms", .whole g.renderMs), ("double_click_ms", .whole g.doubleClickMs)]) = .ok g := by
  rw [asRecord, sorted_timing]
  rfl

/-- All settings of a configuration. -/
def settings (c : Config) : Setting :=
  .table [
    ("defaults", .table [("canvas_width", .number c.defaults.canvasWidth),
      ("queues_file", optionalText c.defaults.queuesFile), ("metrics_file", optionalText c.defaults.metricsFile),
      ("animate", .flag c.defaults.animate), ("output", .text c.defaults.output)]),
    ("tui", .table [("tick_ms", .whole c.timing.tickMs), ("render_ms", .whole c.timing.renderMs),
      ("double_click_ms", .whole c.timing.doubleClickMs)])]

/-- The settings of a configuration describe it. -/
theorem ofSetting_settings (c : Config) : ofSetting c.settings = .ok c := by
  rw [ofSetting, settings, asRecord, sorted_tables]
  simp only [setMembers]
  simp [tableKeys, asRecord_defaults, asRecord_timing, within, Except.map, bind, Except.bind]

/-- Layers that come to the settings of a configuration are that configuration. -/
theorem ofLayers_settings {c : Config} (hfault : c.fault? = none) {file env : Setting}
    (h : (builtIn.overlay file).overlay env = c.settings) : ofLayers file env = .ok c := by
  rw [ofLayers, h, ofSetting_settings]
  simp only [hfault]

/-- The built-in configuration is valid, with animations or without. -/
theorem fault?_builtIn (animate : Bool) : ({ defaults := { animate } } : Config).fault? = none := by
  have hwidth : isWidth 1600 = true := rfl
  simp [fault?, hwidth]

/-- A variable that turns animations off, and nothing else. -/
theorem ofLayers_animate :
    ofLayers (.table []) (Environment.layer [("QUEUESCOPE_DEFAULTS__ANIMATE", "false")]) =
      .ok { defaults := { animate := false } } := by
  have hlayer : Environment.layer [("QUEUESCOPE_DEFAULTS__ANIMATE", "false")] =
      .table [("defaults", .table [("animate", .flag false)])] := rfl
  rw [hlayer]
  exact ofLayers_settings (fault?_builtIn false) rfl

end Config

/-! ## The document -/

theorem Config.toToml_builtIn (animate : Bool) : ({ defaults := { animate } } : Config).toToml =
    some ("[defaults]\ncanvas_width = 1600.0\nanimate = " ++ (if animate then "true" else "false") ++
      "\noutput = \"table\"\n\n[tui]\ntick_ms = 1000\nrender_ms = 33\ndouble_click_ms = 400\n") := by
  cases animate <;> decide +kernel

namespace Toml

/-- A table ends with the line of its last member. -/
theorem tableText_concat {name text : String} {members : List (String × Toml)} {last : String × Toml}
    (h : tableText (name, members ++ [last]) = some text) :
    ∃ front ending, line last = some ending ∧ text = front ++ ending := by
  obtain ⟨lines, hlines, htext⟩ := Option.bind_eq_some_iff.1 h
  rw [List.mapM_append] at hlines
  obtain ⟨init, -, hlines⟩ := Option.bind_eq_some_iff.1 hlines
  obtain ⟨more, hmore, hlines⟩ := Option.bind_eq_some_iff.1 hlines
  obtain ⟨ending, rest, hending, hrest, rfl⟩ := mapM_cons_eq_some hmore
  cases hrest
  cases hlines
  cases htext
  refine ⟨"[" ++ name ++ "]\n" ++ String.join init, ending, hending, ?_⟩
  simp [← String.toList_inj, String.toList_join]

/-- A document of two tables ends with the second one. -/
theorem documentText_pair {first second : String × List (String × Toml)} {text : String}
    (h : documentText [first, second] = some text) :
    ∃ front ending, tableText second = some ending ∧ text = front ++ ending := by
  obtain ⟨texts, htexts, htext⟩ := Option.bind_eq_some_iff.1 h
  obtain ⟨firstText, more, -, hmore, rfl⟩ := mapM_cons_eq_some htexts
  obtain ⟨ending, rest, hending, hrest, rfl⟩ := mapM_cons_eq_some hmore
  cases hrest
  cases htext
  exact ⟨firstText ++ "\n", ending, hending, rfl⟩

end Toml

namespace Config

/-- The document of a configuration ends with a number and a line break. -/
theorem toToml_ends {c : Config} {text : String} (h : c.toToml = some text) :
    ∃ front, text = front ++ Nat.repr c.timing.doubleClickMs ++ "\n" := by
  obtain ⟨front, tui, htui, rfl⟩ := Toml.documentText_pair h
  have htui : Toml.tableText (_,
      [("tick_ms", .integer c.timing.tickMs), ("render_ms", .integer c.timing.renderMs)] ++
      [("double_click_ms", .integer c.timing.doubleClickMs)]) = some tui := htui
  obtain ⟨lines, ending, hending, rfl⟩ := Toml.tableText_concat htui
  obtain ⟨number, hnumber, hending⟩ := Option.bind_eq_some_iff.1 hending
  cases hending
  rw [Toml.plainText] at hnumber
  split at hnumber
  · cases hnumber
    refine ⟨front ++ lines ++ "double_click_ms = ", ?_⟩
    show _ = front ++ lines ++ "double_click_ms = " ++ toString (c.timing.doubleClickMs : Int) ++ "\n"
    simp [← String.toList_inj]
  · cases hnumber

end Config

namespace Text

theorem isBlank_of_isDigit {c : Char} (h : c.isDigit = true) : isBlank c = false := by
  rw [Char.isDigit, Bool.and_eq_true, decide_eq_true_iff, decide_eq_true_iff] at h
  obtain ⟨hlow, hhigh⟩ := h
  have hlow : 48 ≤ c.toNat := hlow
  have hhigh : c.toNat ≤ 57 := hhigh
  simp only [isBlank, Bool.or_eq_false_iff, Bool.and_eq_false_iff, decide_eq_false_iff_not, beq_eq_false_iff_ne]
  omega

/-- A line break at the end is all that is trimmed after a character that is not blank. -/
theorem trimEnd_break (front : List Char) {last : Char} (h : isBlank last = false) :
    trimEnd (front ++ [last, '\n']) = front ++ [last] := by
  have hbreak : isBlank '\n' = true := by decide
  simp [trimEnd, hbreak, h]

end Text

/-! ## What is shown -/

namespace Command

/-- How a configuration is told: its document, or nothing if that is not wanted. -/
def told (g : Globals) (c : Config) : Option String := c.toToml.map fun text => if g.quiet then "" else text

/-- A text that ends with a line break and no blank before it is printed as it is: the line break that is taken
away is put back. -/
theorem printed_withoutEnd {text : String} {front : List Char} {last : Char}
    (htext : text.toList = front ++ [last, '\n']) (hlast : Text.isBlank last = false) (g : Globals) :
    printed g (withoutEnd text) = if g.quiet then "" else text := by
  have hwithout : withoutEnd text = String.ofList (front ++ [last]) := by
    rw [withoutEnd, htext, Text.trimEnd_break front hlast]
  have hne : (String.ofList (front ++ [last])).isEmpty = false := by
    rw [Bool.eq_false_iff]
    intro hempty
    have hnil := congrArg String.toList (String.isEmpty_iff.1 hempty)
    simp at hnil
  have hline : String.ofList (front ++ [last]) ++ "\n" = text := by simp [← String.toList_inj, htext]
  rw [hwithout, printed, hne, Bool.or_false, hline]

theorem printed_toToml {c : Config} {text : String} (h : c.toToml = some text) (g : Globals) :
    printed g (withoutEnd text) = if g.quiet then "" else text := by
  obtain ⟨front, rfl⟩ := Config.toToml_ends h
  obtain ⟨cs, d, hcs, hd⟩ : ∃ cs d, (Nat.repr c.timing.doubleClickMs).toList = cs ++ [d] ∧
      d.isDigit = true := by
    rw [Nat.repr, String.toList_ofList]
    have hne : Nat.toDigits 10 c.timing.doubleClickMs ≠ [] := Nat.toDigits_ne_nil
    exact ⟨_, _, (List.dropLast_concat_getLast hne).symm,
      Nat.isDigit_of_mem_toDigits (by omega) (by omega) (List.getLast_mem hne)⟩
  have htext : (front ++ Nat.repr c.timing.doubleClickMs ++ "\n").toList = (front.toList ++ cs) ++ [d, '\n'] := by
    simp [hcs]
  exact printed_withoutEnd htext (Text.isBlank_of_isDigit hd) g

variable {env : Config.Environment.Variables} {g : Globals} {w : List Warning} {t : FileTree}

theorem loadConfig_on : (loadConfig env g).on w t =
    ((if g.config.isSome then (Config.loaded env t (configFile env g)).mapError .config
      else .ok ((Config.loaded env t (configFile env g)).toOption.getD {}), w), t) := by
  cases hconfig : g.config with
  | some path =>
    simp only [loadConfig, configFile, hconfig, on_stored, OnFileTree.bind_run, Config.load_run]
    rfl
  | none =>
    simp only [loadConfig, configFile, hconfig, on_liftM, Config.loadOrDefault, OnFileTree.bind_run,
      Config.load_run]
    rfl

/-- If no path is asked for then a configuration is loaded, whatever is in the files. -/
theorem loadConfig_of_no_path (h : g.config = none) : ∃ c, ((loadConfig env g).on w t).1.1 = .ok c := by
  rw [loadConfig_on, h]
  exact ⟨_, rfl⟩

theorem printConfig_on : ((printConfig env g).on w t).1.1 =
    (if t.entryExists (configFile env g) then (Config.loaded env t (configFile env g)).mapError .config
      else .ok {}).bind fun c =>
        match c.toToml with
        | some text => .ok { output := printed g (withoutEnd text) }
        | none => .error (.config .notWritable) := by
  rw [printConfig, on_bind, on_liftM, OnFileTree.entryExists_run]
  dsimp only
  by_cases hexists : t.entryExists (configFile env g) = true
  · rw [if_pos hexists, if_pos hexists, on_bind, on_stored, OnFileTree.bind_run, Config.load_run]
    dsimp only [OnFileTree.pure_run]
    cases Config.loaded env t (configFile env g) with
    | error e => rfl
    | ok c =>
      dsimp only [Except.mapError, Except.bind]
      cases c.toToml <;> rfl
  · rw [if_neg hexists, if_neg hexists, on_bind, on_pure]
    dsimp only [Except.bind]
    cases ({} : Config).toToml <;> rfl

theorem told_of_toToml {c : Config} {text : String} (h : c.toToml = some text) :
    some (printed g (withoutEnd text)) = told g c := by
  rw [told, h, printed_toToml h]
  rfl

/-- **What is shown is the configuration that commands use if there is a file.** If not, the built-in one is
shown; that is the one in use where neither another file nor the environment sets anything. -/
theorem printConfig_told {c : Config} {p : Printed} (hload : ((loadConfig env g).on w t).1.1 = .ok c)
    (hprint : ((printConfig env g).on w t).1.1 = .ok p) :
    some p.output = told g (if t.entryExists (configFile env g) then c else {}) ∧
    (t.locate (configFile env g) = none → Config.Environment.layer env = .table [] →
      some p.output = told g c) := by
  rw [loadConfig_on] at hload
  rw [printConfig_on] at hprint
  have hloaded : t.locate (configFile env g) = none → Config.Environment.layer env = .table [] →
      Config.loaded env t (configFile env g) = .ok {} := by
    intro hlocate henv
    rw [Config.loaded, Config.layerOf, hlocate, henv]
    exact Config.ofLayers_settings (Config.fault?_builtIn true) rfl
  by_cases hexists : t.entryExists (configFile env g) = true
  · rw [if_pos hexists] at hprint ⊢
    cases hconfig : Config.loaded env t (configFile env g) with
    | error e =>
      rw [hconfig] at hprint
      cases hprint
    | ok loaded =>
      rw [hconfig] at hload hprint hloaded
      have hsame : c = loaded := by split at hload <;> cases hload <;> rfl
      subst hsame
      dsimp only [Except.mapError, Except.bind] at hprint
      split at hprint
      · rename_i text htext
        cases hprint
        exact ⟨told_of_toToml htext, fun _ _ => told_of_toToml htext⟩
      · cases hprint
  · rw [if_neg hexists] at hprint ⊢
    dsimp only [Except.bind] at hprint
    split at hprint
    · rename_i text htext
      cases hprint
      refine ⟨told_of_toToml htext, fun hlocate henv => ?_⟩
      rw [hloaded hlocate henv] at hload
      have hbuiltIn : c = {} := by split at hload <;> cases hload <;> rfl
      rw [hbuiltIn]
      exact told_of_toToml htext
    · cases hprint

/-- An empty file and a variable that turns animations off. -/
theorem printConfig_told_file :
    let env := [("QUEUESCOPE_DEFAULTS__ANIMATE", "false")]
    let g : Globals := { config := some "board.toml" }
    let t : FileTree := { files := [(["board.toml"], "")] }
    let c : Config := { defaults := { animate := false } }
    ∃ p, ((loadConfig env g).on [] t).1.1 = .ok c ∧ ((printConfig env g).on [] t).1.1 = .ok p ∧
      some p.output = told g (if t.entryExists (configFile env g) then c else {}) ∧
      (t.locate (configFile env g) = none → Config.Environment.layer env = .table [] →
        some p.output = told g c) := by
  intro env g t c
  have hpath : configFile env g = "board.toml" := rfl
  have hresolve : t.resolve "board.toml" = .ok ["board.toml"] := FileTree.resolve_board rfl
  have hread : t.read "board.toml" = .ok "" := by
    rw [FileTree.read, hresolve]
    rfl
  have hexists : t.entryExists "board.toml" = true := by
    rw [FileTree.entryExists, hresolve]
    rfl
  have hlocate : t.locate "board.toml" = some "board.toml" := by
    have hfile : t.isFile "board.toml" = true := by
      rw [FileTree.isFile, hread]
      rfl
    have hrooted : "board.toml".startsWith "/" = false := by decide +kernel
    rw [FileTree.locate, if_neg (by rw [hrooted]; decide)]
    exact List.find?_cons_of_pos hfile
  have hloaded : Config.loaded env t "board.toml" = .ok c := by
    have hlayer : Config.fileLayer "" = .ok (.table []) := rfl
    rw [Config.loaded, Config.layerOf, hlocate]
    dsimp only
    rw [hread]
    dsimp only
    rw [hlayer]
    exact Config.ofLayers_animate
  have hload : ((loadConfig env g).on [] t).1.1 = .ok c := by
    rw [loadConfig_on, if_pos (show g.config.isSome = true from rfl), hpath, hloaded]
    rfl
  obtain ⟨p, hprint⟩ : ∃ p, ((printConfig env g).on [] t).1.1 = .ok p := by
    rw [printConfig_on, hpath, if_pos hexists, hloaded]
    dsimp only [Except.mapError, Except.bind]
    rw [Config.toToml_builtIn]
    exact ⟨_, rfl⟩
  exact ⟨p, hload, hprint, printConfig_told hload hprint⟩

/-- Without the file the variable is passed over: commands draw no animations, and it is told they do. -/
theorem printConfig_passes_over :
    let env := [("QUEUESCOPE_DEFAULTS__ANIMATE", "false")]
    let g : Globals := { config := some "board.toml" }
    ∃ c p, ((loadConfig env g).on [] {}).1.1 = .ok c ∧ ((printConfig env g).on [] {}).1.1 = .ok p ∧
      some p.output ≠ c.toToml := by
  intro env g
  have hpath : configFile env g = "board.toml" := rfl
  have hexists : ({} : FileTree).entryExists "board.toml" = false := by
    rw [FileTree.entryExists, FileTree.resolve_board rfl]
    rfl
  have hloaded : Config.loaded env {} "board.toml" = .ok { defaults := { animate := false } } := by
    rw [Config.loaded, Config.layerOf, FileTree.locate_of_no_files rfl]
    exact Config.ofLayers_animate
  have hload : ((loadConfig env g).on [] {}).1.1 = .ok { defaults := { animate := false } } := by
    rw [loadConfig_on, if_pos (show g.config.isSome = true from rfl), hpath, hloaded]
    rfl
  obtain ⟨p, hprint, houtput⟩ : ∃ p, ((printConfig env g).on [] {}).1.1 = .ok p ∧
      some p.output = ({} : Config).toToml := by
    have hbuiltIn : ({} : Config).toToml = _ := Config.toToml_builtIn true
    rw [printConfig_on, hpath, hexists]
    dsimp only [Except.bind]
    rw [if_neg Bool.false_ne_true]
    dsimp only
    rw [hbuiltIn]
    exact ⟨_, rfl, by rw [printed_toToml hbuiltIn]; rfl⟩
  refine ⟨_, p, hload, hprint, ?_⟩
  rw [houtput]
  decide +kernel

end Command

end QueueBoard
