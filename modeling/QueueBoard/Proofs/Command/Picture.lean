import QueueBoard.Proofs.Command.Agreement
import QueueBoard.Proofs.Command.Quiet
/-!
# Pictures

A picture is the markup of a dashboard, wherever it goes: the file holds what the output would be, to the last
line break, and which picture it is does not depend on how a program reports (`runLine_delivers`). A command comes to
a scene just if there is a dashboard to show (`Drawing.scene_of_shown`, `Drawing.shown_of_scene`); where its picture
goes is decided after that.
-/

namespace QueueBoard

/-! ## The last line -/

/-- The text of a picture ends with its closing tag and a line break. -/
theorem Svg.toList_render {α : Type} [Scalar α] [Trig α] (animated : Bool) (scene : Scene α) :
    ∃ front, (Svg.render animated scene).toList = front ++ ['>', '\n'] := by
  obtain ⟨front, hwrite⟩ : ∃ front, (Svg.document animated scene).write = front ++ ">" := by
    rw [Svg.document, Markup.Node.write]
    exact ⟨_, rfl⟩
  exact ⟨front.toList, by simp [Svg.render, hwrite]⟩

namespace Command

variable {env : Config.Environment.Variables} {g g' : Globals} {c c' : Context} {w w' : List Warning} {t t' : FileTree}

/-- A picture is printed as it is. -/
theorem printed_render (animated : Bool) (scene : Scene Float) (g : Globals) :
    printed g (withoutEnd (Svg.render animated scene)) = if g.quiet then "" else Svg.render animated scene := by
  obtain ⟨front, htext⟩ := Svg.toList_render animated scene
  exact printed_withoutEnd htext (by decide) g

/-! ## What is drawn -/

/-- What a command draws: a snapshot of queues, one of them selected and some folded, or a snapshot of metrics. -/
inductive Drawing where
  | queues (input select : Option String) (fold : List String)
  | cluster (input : Option String)

namespace Drawing

/-- The command that draws it. -/
def command (picture : PictureOptions) : Drawing → Command
  | queues input select fold => .renderQueues input picture select fold
  | cluster input => .renderCluster input picture

/-- The dashboard's scene, as the command comes to it. -/
def scene (c : Context) : Drawing → Step OnFileTree (Scene Float)
  | queues input select fold => do
    let records ← loadQueues c input
    let d ← dashboard c records fold
    let d ← selected d select
    return d.scene
  | cluster input => do
    let metrics ← loadMetrics c input
    let width ← decided c.width
    return ((ClusterDashboard.new width).load metrics).scene

/-- The scene of the dashboard that shows what a snapshot holds: its file is found, read and accepted, the width is
valid, the names can be folded, and the selected queue exists. -/
inductive Shown (c : Context) (t : FileTree) : Drawing → Scene Float → Prop
  | queues {input select : Option String} {fold : List String} {path text : String}
      {records : List (QueueRecord Float)} {width : Float} (hinput : c.input .queues input = .ok path)
      (hread : t.read path = .ok text) (hparse : Snapshot.parseQueues text = .ok records)
      (hwidth : c.width = .ok width) (hfold : ∀ name ∈ fold, (QueueTree.build records).canFold name = true)
      (hselect : ∀ name, select = some name → ((QueueTree.build records).byName? name).isSome = true) :
      Shown c t (queues input select fold) (QueueDashboard.run width (operations records fold select)).scene
  | cluster {input : Option String} {path text : String} {metrics : ClusterMetrics Float} {width : Float}
      (hinput : c.input .metrics input = .ok path) (hread : t.read path = .ok text)
      (hparse : Snapshot.parseMetrics text = .ok metrics) (hwidth : c.width = .ok width) :
      Shown c t (cluster input) ((ClusterDashboard.new width).load metrics).scene

end Drawing

/-! ## Steps that ended well -/

theorem dashboard_eq_ok {records : List (QueueRecord Float)} {fold : List String} {d : QueueDashboard Float}
    (h : (dashboard c records fold : Step OnFileTree _).on w t = ((.ok d, w'), t')) : ∃ width, c.width = .ok width ∧
      ∀ name ∈ fold, (QueueTree.build records).canFold name = true := by
  obtain ⟨width, w₁, hwidth, h⟩ := (readOnly_decided _).bind_eq_ok h
  obtain ⟨-, w₂, -, h⟩ := (readOnly_warn _).bind_eq_ok h
  obtain ⟨loaded, w₃, hloaded, h⟩ := (readOnly_drawn _).bind_eq_ok h
  cases hloaded
  obtain ⟨folded, w₄, hfolded, -⟩ := (readOnly_decided _).bind_eq_ok h
  exact ⟨width, decided_eq_ok hwidth, canFold_of_foldedSet (decided_eq_ok hfolded)⟩

/-- A snapshot that was loaded was read and accepted. -/
theorem snapshot_eq_ok {β : Type} {parse : String → Except Snapshot.Error β} {path : String} {b : β}
    (h : (stored do return (← (do return (← Snapshot.readFile path).bind parse : OnFileTree _)).mapError .ofSnapshot :
      Step OnFileTree β).on w t = ((.ok b, w'), t')) : ∃ text, t.read path = .ok text ∧ parse text = .ok b := by
  rw [snapshot_on] at h
  have h : (((t.read path).mapError _).bind parse).mapError Error.ofSnapshot = .ok b := congrArg (·.1.1) h
  obtain ⟨text, hread, hparse⟩ := bind_eq_ok (mapError_eq_ok h)
  exact ⟨text, mapError_eq_ok hread, hparse⟩

theorem loadQueues_eq_ok {input : Option String} {records : List (QueueRecord Float)}
    (h : (loadQueues c input).on w t = ((.ok records, w'), t')) : ∃ path text, c.input .queues input = .ok path ∧
      t.read path = .ok text ∧ Snapshot.parseQueues text = .ok records := by
  obtain ⟨path, w₁, hinput, h⟩ := (readOnly_decided _).bind_eq_ok h
  obtain ⟨text, hread, hparse⟩ := snapshot_eq_ok h
  exact ⟨path, text, decided_eq_ok hinput, hread, hparse⟩

theorem loadMetrics_eq_ok {input : Option String} {metrics : ClusterMetrics Float}
    (h : (loadMetrics c input).on w t = ((.ok metrics, w'), t')) : ∃ path text, c.input .metrics input = .ok path ∧
      t.read path = .ok text ∧ Snapshot.parseMetrics text = .ok metrics := by
  obtain ⟨path, w₁, hinput, h⟩ := (readOnly_decided _).bind_eq_ok h
  obtain ⟨text, hread, hparse⟩ := snapshot_eq_ok h
  exact ⟨path, text, decided_eq_ok hinput, hread, hparse⟩

namespace Drawing

theorem runSnapshot_command (drawing : Drawing) (picture : PictureOptions) :
    (runSnapshot c (drawing.command picture) : Step OnFileTree _) =
      drawing.scene c >>= publish c picture := by
  cases drawing <;> simp [command, scene, runSnapshot]

theorem scene_congr (hconfig : c.config = c'.config) (hwidth : c.globals.width = c'.globals.width)
    (drawing : Drawing) : drawing.scene c = drawing.scene c' := by
  have hwidth : c.width = c'.width := by rw [Context.width, Context.width, hconfig, hwidth]
  have hinput : c.input = c'.input := by
    funext source given
    cases source <;> simp [Context.input, Context.configured, hconfig]
  cases drawing <;> simp [scene, loadQueues, loadMetrics, dashboard, hwidth, hinput]

theorem readOnly_scene (drawing : Drawing) : (drawing.scene c).ReadOnly := by
  cases drawing with
  | queues input select fold =>
    exact readOnly_bind (readOnly_loadQueues input) fun records =>
      readOnly_bind (readOnly_dashboard records fold) fun d =>
        readOnly_bind (readOnly_selected d select) fun _ => readOnly_pure _
  | cluster input =>
    exact readOnly_bind (readOnly_loadMetrics input) fun _ =>
      readOnly_bind (readOnly_decided _) fun _ => readOnly_pure _

theorem scene_of_shown {drawing : Drawing} {scene : Scene Float} (h : drawing.Shown c t scene) :
    ∃ w', (drawing.scene c).on w t = ((.ok scene, w'), t) := by
  cases h with
  | queues hinput hread hparse hwidth hfold hselect =>
    rename_i select fold path text records width
    obtain ⟨w₁, hboard⟩ := board_run (w := w) (t := t) hwidth hfold hselect
    refine ⟨w₁, ?_⟩
    rw [Drawing.scene, on_bind, loadQueues_on hread hinput hparse]
    dsimp only
    rw [← bind_assoc, on_bind, hboard]
    rfl
  | cluster hinput hread hparse hwidth =>
    refine ⟨w, ?_⟩
    rw [Drawing.scene, on_bind, loadMetrics_on hread hinput hparse]
    dsimp only
    rw [on_bind, on_decided, hwidth]
    rfl

/-- A command that comes to a scene has a dashboard to show, and the scene is that of the dashboard. -/
theorem shown_of_scene {drawing : Drawing} {scene : Scene Float}
    (hscene : (drawing.scene c).on w t = ((.ok scene, w'), t')) : drawing.Shown c t scene := by
  cases drawing with
  | queues input select fold =>
    obtain ⟨records, w₁, hload, h⟩ := (readOnly_loadQueues input).bind_eq_ok hscene
    obtain ⟨path, text, hinput, hread, hparse⟩ := loadQueues_eq_ok hload
    obtain ⟨d, w₂, hdashboard, h⟩ := (readOnly_dashboard records fold).bind_eq_ok h
    obtain ⟨width, hwidth, hfold⟩ := dashboard_eq_ok hdashboard
    have hselect : ∀ name, select = some name → ((QueueTree.build records).byName? name).isSome = true := by
      rintro name rfl
      obtain ⟨w₃, hsame⟩ := dashboard_run (w := w₁) (t := t) hwidth hfold
      rw [hsame] at hdashboard
      cases hdashboard
      obtain ⟨d', w₄, hselected, -⟩ := (readOnly_selected _ _).bind_eq_ok h
      obtain ⟨_, w₅, hqueue, -⟩ := (readOnly_decided _).bind_eq_ok hselected
      have htree : (QueueDashboard.run width (operations records fold none)).tree = QueueTree.build records :=
        (displays_operations hfold).tree
      rw [← htree]
      exact isSome_of_ensureQueue (decided_eq_ok hqueue)
    have hshown := Shown.queues hinput hread hparse hwidth hfold hselect
    obtain ⟨w₃, hsame⟩ := scene_of_shown (w := w) hshown
    rw [hscene] at hsame
    cases hsame
    exact hshown
  | cluster input =>
    obtain ⟨metrics, w₁, hload, h⟩ := (readOnly_loadMetrics input).bind_eq_ok hscene
    obtain ⟨path, text, hinput, hread, hparse⟩ := loadMetrics_eq_ok hload
    obtain ⟨width, w₂, hwidth, h⟩ := (readOnly_decided _).bind_eq_ok h
    cases h
    exact .cluster hinput hread hparse (decided_eq_ok hwidth)

end Drawing

/-! ## Where it goes -/

theorem publish_output {picture : PictureOptions} (hout : picture.out = none) (scene : Scene Float) :
    let svg := Svg.render (!picture.still && c.config.defaults.animate) scene
    (publish c picture scene).on w t = ((.ok { output := if c.globals.quiet then "" else svg }, w), t) := by
  simp only [publish, hout, printed_render]
  rfl

theorem publish_out {picture : PictureOptions} {path : String} (hout : picture.out = some path)
    (scene : Scene Float) : (publish c picture scene).on w t =
    match t.write path (Svg.render (!picture.still && c.config.defaults.animate) scene) with
    | .ok after => ((.ok { notice := notice c.globals "Wrote" path }, w), after)
    | .error e => ((.error (.file e), w), t) := by
  simp only [publish, hout, on_bind, on_stored, OnFileTree.bind_run, write_run]
  cases t.write path (Svg.render (!picture.still && c.config.defaults.animate) scene) <;> rfl

/-- A run ended well and a picture is where it was to go: on the output if that is not quiet, or in a file, the only
thing that is written then. A run that was to write a file ends well exactly if it can be written. -/
structure Delivers (quiet : Bool) (svg : String) (t : FileTree) (out : Option String) (ending : Outcome × FileTree) :
    Prop where
  printed : out = none → ending.1.exitCode = 0 ∧ ending.2 = t ∧
    ending.1.standardOutput = if quiet then "" else svg
  written : ∀ path, out = some path → ending.1.standardOutput = "" ∧ (ending.1.exitCode = 0 ↔ t.CanWrite path) ∧
    (ending.1.exitCode = 0 → t.write path svg = .ok ending.2 ∧ ending.2.read path = .ok svg)

namespace Drawing

variable {drawing : Drawing} {picture : PictureOptions} {config : Config} {scene : Scene Float}

theorem run_command (drawing : Drawing) (picture : PictureOptions) :
    (run env g (drawing.command picture) : Step OnFileTree _) = (loadConfig env g >>= fun config =>
      drawing.scene ⟨g, config⟩ >>= publish ⟨g, config⟩ picture) := by
  simp only [← runSnapshot_command]
  cases drawing <;> rfl

/-- A command that ends well had a dashboard to show. -/
theorem shown_of_run {printed : Printed}
    (h : (run env g (drawing.command picture)).on [] t = ((.ok printed, w'), t')) : ∃ config scene,
    ((loadConfig env g).on [] t).1.1 = .ok config ∧ drawing.Shown ⟨g, config⟩ t scene := by
  rw [run_command] at h
  obtain ⟨config, w₁, hload, h⟩ := readOnly_loadConfig.bind_eq_ok h
  obtain ⟨scene, w₂, hscene, -⟩ := (readOnly_scene drawing).bind_eq_ok h
  exact ⟨config, scene, by rw [hload], shown_of_scene hscene⟩

/-- A command with this dashboard to show puts its picture where it is wanted, whatever else is asked for. -/
theorem run_of_shown (hload : ((loadConfig env g).on [] t).1.1 = .ok config)
    (hshown : drawing.Shown ⟨g, config⟩ t scene) (hconfig : g'.config = g.config) (hwidth : g'.width = g.width)
    (picture : PictureOptions) : ∃ w, (run env g' (drawing.command picture)).on [] t =
      (publish ⟨g', config⟩ picture scene).on w t := by
  have hload' : ((loadConfig env g').on [] t).1.1 = .ok config := by
    rw [← hload, loadConfig, loadConfig, hconfig]
  have hsame : drawing.scene ⟨g', config⟩ = drawing.scene ⟨g, config⟩ := by
    refine scene_congr ?_ hwidth drawing
    rfl
  obtain ⟨w, hscene⟩ := scene_of_shown (w := []) hshown
  refine ⟨w, ?_⟩
  rw [run_command, on_bind, loadConfig_on_ok hload']
  dsimp only
  rw [hsame, on_bind, hscene]

theorem delivers_of_shown (hload : ((loadConfig env g).on [] t).1.1 = .ok config)
    (hshown : drawing.Shown ⟨g, config⟩ t scene) (hconfig : g'.config = g.config) (hwidth : g'.width = g.width)
    {words : List String} {out : Option String} {still : Bool}
    (hparse : parse (Config.Environment.lookup env) words = .ok (g', drawing.command ⟨out, still⟩)) :
    Delivers g'.quiet (Svg.render (!still && config.defaults.animate) scene) t out
      ((runLine env words : OnFileTree Outcome).run t) := by
  obtain ⟨w, hrun⟩ := run_of_shown hload hshown hconfig hwidth ⟨out, still⟩
  rw [runLine_run, hparse]
  dsimp only
  rw [hrun]
  constructor
  · rintro rfl
    rw [publish_output rfl]
    exact ⟨rfl, rfl, String.append_empty⟩
  · rintro path rfl
    rw [publish_out rfl, FileTree.canWrite_iff]
    dsimp only
    cases hwrite : t.write path (Svg.render (!still && config.defaults.animate) scene) with
    | error e =>
      have hcode := exitCode_ne_zero (.file e)
      exact ⟨rfl, ⟨fun h => absurd h hcode, fun ⟨after, h⟩ => nomatch h⟩, fun h => absurd h hcode⟩
    | ok after => exact ⟨rfl, ⟨fun _ => ⟨after, rfl⟩, fun _ => rfl⟩, fun _ => ⟨rfl, FileTree.read_of_write hwrite⟩⟩

end Drawing

/-- A program that ends well has run its command to the end. -/
theorem run_of_exitCode {words : List String} {command : Command}
    (hparse : parse (Config.Environment.lookup env) words = .ok (g, command))
    (hcode : ((runLine env words : OnFileTree Outcome).run t).1.exitCode = 0) : ∃ printed w' t',
    (run env g command).on [] t = ((.ok printed, w'), t') := by
  rw [runLine_run, hparse] at hcode
  dsimp only at hcode
  generalize (run env g command : Step OnFileTree _).on [] t = ending at hcode
  obtain ⟨⟨cause | printed, w'⟩, t'⟩ := ending
  · exact absurd hcode (exitCode_ne_zero cause)
  · exact ⟨printed, w', t', rfl⟩

/-! ## Asking for a picture -/

section

open Arguments

/-- The level of the command that draws queues. -/
def renderLevel : Level :=
  level (program ++ "-queues-") "render" [] (inputSwitch :: pictureSwitches ++ [selectSwitch, foldSwitch]) []

/-- The option for the width. -/
def widthSwitch : Switch := { name := "width", letter := some 'w', takes := .one .number }

theorem settle_width : Progress.settle
    { given := [⟨"input", ["board.toml"], .commandLine⟩], pending := some (widthSwitch, some "800") } =
      .ok { given := [⟨"input", ["board.toml"], .commandLine⟩, ⟨"width", ["800"], .commandLine⟩] } := by
  have hnumber : ValueKind.number.fault? "800" = none := rfl
  simp [Progress.settle, Progress.keep, widthSwitch, Progress.has, hnumber, Progress.add]

/-- Words that ask for a picture of a file at a width. -/
theorem parse_render {more : List String} {own : List Arguments.Given}
    (hmore : readWords (Config.Environment.lookup []) renderLevel
      { given := [⟨"input", ["board.toml"], .commandLine⟩], pending := some (widthSwitch, some "800") } more =
        .ok { levels := [own] }) :
    let r : Reading := { path := ["queues", "render"], levels := [[], [], own] }
    parse (Config.Environment.lookup []) (["queues", "render", "-i", "board.toml", "-w", "800"] ++ more) =
      .ok (globalsOf r, .renderQueues (r.value? "input") ⟨r.value? "out", r.flag "no-animate"⟩ (r.value? "select")
        (r.values "fold")) := by
  have hqueues : grammar.find? "queues" = some (level (program ++ "-") "queues" ["q"] [] queueLevels) := rfl
  have hrender : (level (program ++ "-") "queues" ["q"] [] queueLevels).find? "render" = some renderLevel := rfl
  have hinput : renderLevel.short? 'i' = some inputSwitch := by decide
  have hwidth : renderLevel.short? 'w' = some widthSwitch := by decide
  have hwords : readWords (Config.Environment.lookup []) renderLevel {}
      ("-i" :: "board.toml" :: "-w" :: "800" :: more) = .ok { levels := [own] } := by
    rw [readWords_short_value rfl rfl rfl rfl (by decide : "board.toml".toList = 'b' :: "oard.toml".toList)
        (by decide) (by decide : "-i".toList = ['-', 'i']) (by decide) hinput,
      readWords_short_value rfl rfl rfl rfl (by decide : "800".toList = '8' :: "00".toList) (by decide)
        (by decide : "-w".toList = ['-', 'w']) (by decide) hwidth]
    exact hmore
  have hread : Arguments.read (Config.Environment.lookup []) grammar
      ("queues" :: "render" :: "-i" :: "board.toml" :: "-w" :: "800" :: more) =
        .ok { path := ["queues", "render"], levels := [[], [], own] } := by
    rw [Arguments.read, readWords_inner rfl hqueues, readWords_inner rfl hrender, hwords]
    rfl
  show parse _ ("queues" :: "render" :: "-i" :: "board.toml" :: "-w" :: "800" :: more) = _
  rw [parse, hread]
  rfl

/-- The picture goes to the output. -/
theorem parse_render_output :
    parse (Config.Environment.lookup []) ["queues", "render", "-i", "board.toml", "-w", "800"] =
      .ok ({ width := some 800 }, .renderQueues (some "board.toml") {} none []) := by
  have hwidth : Decimal.readFloat "800" = some 800 := rfl
  have hmore : readWords (Config.Environment.lookup []) renderLevel
      { given := [⟨"input", ["board.toml"], .commandLine⟩], pending := some (widthSwitch, some "800") } [] =
      .ok { levels := [[⟨"input", ["board.toml"], .commandLine⟩, ⟨"width", ["800"], .commandLine⟩]] } := by
    rw [readWords, finish, settle_width]
    rfl
  rw [← hwidth]
  exact parse_render hmore

/-- The picture goes to a file. -/
theorem parse_render_file : parse (Config.Environment.lookup [])
    ["queues", "render", "-i", "board.toml", "-w", "800", "--out", "board.toml"] =
      .ok ({ width := some 800 }, .renderQueues (some "board.toml") { out := some "board.toml" } none []) := by
  have hwidth : Decimal.readFloat "800" = some 800 := rfl
  have hout : renderLevel.long? (String.ofList ['o', 'u', 't']) = some { name := "out", takes := .one .path } := by
    decide
  have hmore : readWords (Config.Environment.lookup []) renderLevel
      { given := [⟨"input", ["board.toml"], .commandLine⟩], pending := some (widthSwitch, some "800") }
      ["--out", "board.toml"] = .ok { levels := [[⟨"input", ["board.toml"], .commandLine⟩,
        ⟨"width", ["800"], .commandLine⟩, ⟨"out", ["board.toml"], .commandLine⟩]] } := by
    rw [readWords_long_value rfl rfl rfl settle_width (by decide : "board.toml".toList = 'b' :: "oard.toml".toList)
      (by decide) (by decide : "--out".toList = ['-', '-', 'o', 'u', 't']) (by simp) hout, readWords]
    rfl
  rw [← hwidth]
  exact parse_render hmore

end

/-! ## One picture -/

/-- **Where a picture goes does not change it.** A command line that draws and ends well had a dashboard to show.
Every command line that draws the same, from the same configuration and at the same width, delivers the markup of
that dashboard, to the output or to a file, whatever it asks for in formats, colors, the log and quiet.

**Quiet changes nothing but what is printed.** With the flag in front a command line is the quiet one, which ends
with the same code and leaves the same files; its output is empty. -/
theorem runLine_delivers (env : Config.Environment.Variables) (t : FileTree) :
    let asks (words : List String) := parse (Config.Environment.lookup env) words
    let ends (words : List String) : Outcome × FileTree := (runLine env words : OnFileTree Outcome).run t
    (∀ drawing still words g out, asks words = .ok (g, Drawing.command ⟨out, still⟩ drawing) →
      (ends words).1.exitCode = 0 →
      ∃ config scene, ((loadConfig env g).on [] t).1.1 = .ok config ∧ drawing.Shown ⟨g, config⟩ t scene ∧
        ∀ words' g' out', asks words' = .ok (g', Drawing.command ⟨out', still⟩ drawing) →
          g'.config = g.config → g'.width = g.width →
            Delivers g'.quiet (Svg.render (!still && config.defaults.animate) scene) t out' (ends words')) ∧
    ∀ words g command, asks words = .ok (g, command) →
      (g.quiet = false → asks ("-q" :: words) = .ok (g.hushed, command)) ∧
      ∀ quiet, asks quiet = .ok (g.hushed, command) →
        ends quiet = ({ (ends words).1 with printed := {} }, (ends words).2) ∧
          (ends quiet).1.exitCode = (ends words).1.exitCode ∧ (ends quiet).1.standardOutput = "" := by
  intro asks ends
  constructor
  · intro drawing still words g out hasks hcode
    obtain ⟨printed, w', t', hrun⟩ := run_of_exitCode hasks hcode
    obtain ⟨config, scene, hload, hshown⟩ := Drawing.shown_of_run hrun
    exact ⟨config, scene, hload, hshown, fun words' g' out' hasks' hconfig hwidth =>
      Drawing.delivers_of_shown hload hshown hconfig hwidth hasks'⟩
  · intro words g command hasks
    refine ⟨parse_quiet hasks, fun quiet hquiet => ?_⟩
    obtain ⟨hends, houtput⟩ := runLine_hushed hasks hquiet t
    have hends : ends quiet = ({ (ends words).1 with printed := {} }, (ends words).2) := hends
    exact ⟨hends, by rw [hends]; rfl, by rw [hends]; exact houtput⟩

/-- The picture of a root and its child is printed, written over the snapshot that it shows, and not printed. -/
theorem runLine_delivers_board :
    let t : FileTree := { files := [(["board.toml"], familyText)] }
    let words := ["queues", "render", "-i", "board.toml", "-w", "800"]
    let ends (words : List String) : Outcome × FileTree := (runLine [] words : OnFileTree Outcome).run t
    (ends words).1.exitCode = 0 ∧ (ends (words ++ ["--out", "board.toml"])).1.exitCode = 0 ∧
      (ends (words ++ ["--out", "board.toml"])).2.read "board.toml" = .ok (ends words).1.standardOutput ∧
      (ends ("-q" :: words)).1.exitCode = 0 ∧ (ends ("-q" :: words)).1.standardOutput = "" := by
  intro t words ends
  have hresolve : t.resolve "board.toml" = .ok ["board.toml"] := FileTree.resolve_board rfl
  have hread : t.read "board.toml" = .ok familyText := by
    rw [FileTree.read, hresolve]
    rfl
  have hwrite : t.CanWrite "board.toml" := ⟨["board.toml"], hresolve, rfl⟩
  let g : Globals := { width := some 800 }
  have hcode : (ends words).1.exitCode = 0 := by
    obtain ⟨config, hload⟩ : ∃ config, ((loadConfig [] g).on [] t).1.1 = .ok config := loadConfig_of_no_path rfl
    have hwidth : (⟨g, config⟩ : Context).width = .ok 800 := by
      have hvalid : Config.isWidth 800 = true := by decide +kernel
      exact if_pos hvalid
    have hshown : Drawing.Shown ⟨g, config⟩ t (.queues (some "board.toml") none []) _ :=
      .queues rfl hread parseQueues_familyText hwidth (by simp) (by simp)
    exact ((Drawing.delivers_of_shown hload hshown rfl rfl parse_render_output).printed rfl).1
  obtain ⟨hpictures, hquiet⟩ := runLine_delivers [] t
  obtain ⟨config, scene, -, -, hdelivers⟩ :=
    hpictures (.queues (some "board.toml") none []) false words g none parse_render_output hcode
  have hprinted := hdelivers words g none parse_render_output rfl rfl
  have hwritten := hdelivers (words ++ ["--out", "board.toml"]) g (some "board.toml") parse_render_file rfl rfl
  obtain ⟨-, houtcode, hfile⟩ := hwritten.written "board.toml" rfl
  obtain ⟨hflag, hhushed⟩ := hquiet words g _ parse_render_output
  obtain ⟨-, hquietcode, hsilent⟩ := hhushed ("-q" :: words) (hflag rfl)
  refine ⟨hcode, houtcode.2 hwrite, ?_, hquietcode.trans hcode, hsilent⟩
  rw [(hfile (houtcode.2 hwrite)).2, (hprinted.printed rfl).2.2]
  rfl

end Command

end QueueBoard
