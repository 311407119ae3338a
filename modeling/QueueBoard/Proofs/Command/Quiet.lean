import QueueBoard.Proofs.Command.Writing
/-!
# Quiet runs

A quiet run does what the run aloud does, and prints nothing (`run_hushed`). Any command line that does not ask for
quiet becomes the quiet one by the flag in front of it (`parse_quiet`).
-/

namespace QueueBoard

/-! ## The flag in front -/

namespace Arguments

namespace Reading

variable {r : Reading} {g : Given} {own : List Given} {inner : List (List Given)} {name : String}

/-- What is given nowhere is given on no level. -/
theorem any_of_given? (h : r.given? name = none) {level : List Given} (hlevel : level ∈ r.levels) :
    level.any (·.name == name) = false := by
  rw [given?] at h
  split at h
  · cases h
  · rw [List.head?_eq_none_iff, List.filter_eq_nil_iff] at h
    rw [List.any_eq_false]
    exact fun given hgiven => h given (List.mem_flatten_of_mem (List.mem_reverse.2 hlevel) hgiven)

/-- An option in front of the others matters to no other option. -/
theorem given?_inFront (hlevels : r.levels = own :: inner) (hname : g.name ≠ name) :
    ({ r with levels := (g :: own) :: inner } : Reading).given? name = r.given? name := by
  simp [given?, hlevels, hname]

end Reading

end Arguments

namespace Command

open Arguments

variable {env : Config.Environment.Variables} {g : Globals} {lookup : String → Option String} {words : List String}
  {command : Command}

/-- The same wishes, and no output. -/
def Globals.hushed (g : Globals) : Globals := { g with quiet := true }

/-- The flag for no output. -/
def quietFlag : Arguments.Given := ⟨"quiet", [""], .commandLine⟩

theorem readShort_quiet : readShort grammar {} ['q'] = .ok (({} : Progress).after quietFlag) := rfl

/-- **A command line with the flag in front asks for the same, and for no output.** -/
theorem parse_quiet (h : parse lookup words = .ok (g, command)) (hloud : g.quiet = false) :
    parse lookup ("-q" :: words) = .ok (g.hushed, command) := by
  obtain ⟨r, hread, h⟩ := bind_eq_ok h
  have hcommand : ofReading r = some command ∧ globalsOf r = g := by
    cases hof : ofReading r with
    | none =>
      rw [hof] at h
      cases h
    | some found =>
      rw [hof] at h
      cases h
      exact ⟨rfl, rfl⟩
  obtain ⟨hcommand, rfl⟩ := hcommand
  obtain ⟨own, inner, hlevels, hcarries⟩ := readWords_after (g := quietFlag) words {} r hread
  have hnone : r.given? "quiet" = none := Option.isNone_iff_eq_none.1 (by simpa [globalsOf, Reading.flag] using hloud)
  obtain ⟨-, hwords⟩ := hcarries (Reading.any_of_given? hnone (by rw [hlevels]; exact .head inner))
  let quiet : Reading := { r with levels := (quietFlag :: own) :: inner }
  have hread : Arguments.read lookup grammar ("-q" :: words) = .ok quiet := by
    rw [Arguments.read, readWords_short rfl rfl (by decide : "-q".toList = '-' :: 'q' :: []) (by decide),
      readShort_quiet]
    exact hwords
  have hgiven : ∀ name, "quiet" ≠ name → quiet.given? name = r.given? name :=
    fun name hname => Reading.given?_inFront hlevels hname
  have hflag : quiet.flag "quiet" = true := by
    by_contra hflag
    have hnone := Reading.any_of_given? (Option.not_isSome_iff_eq_none.1 hflag) (.head inner)
    cases hnone
  have hpath : quiet.path = r.path := rfl
  have hsame : ofReading quiet = ofReading r := by
    simp [ofReading, Reading.value?, Reading.values, Reading.flag, hgiven, hpath]
  have hglobals : globalsOf quiet = (globalsOf r).hushed := by
    simp [globalsOf, Globals.hushed, Reading.value?, Reading.values, Reading.count, hgiven, hflag]
  rw [parse, hread]
  simp only [bind, Except.bind, hsame, hcommand, hglobals]
  rfl

/-! ## Two runs -/

section

variable {config : Config}

theorem printed_hushed (text : String) : printed g.hushed text = "" := by simp [printed, Globals.hushed]

theorem notice_hushed (word path : String) : notice g.hushed word path = "" := by simp [notice, Globals.hushed]

theorem report_hushed (r : Report) : (⟨g.hushed, config⟩ : Context).report r = {} := by
  rw [Context.report, printed_hushed]

theorem publish_hushed (picture : PictureOptions) (scene : Scene Float) :
    (publish ⟨g.hushed, config⟩ picture scene : Step OnFileTree _) =
      (fun _ => {}) <$> publish ⟨g, config⟩ picture scene := by
  rw [publish, publish]
  cases picture.out with
  | none =>
    dsimp only
    rw [map_pure, printed_hushed]
  | some path =>
    dsimp only
    simp only [map_bind, map_pure, notice_hushed]

theorem runSnapshot_hushed (command : Command) :
    (runSnapshot ⟨g.hushed, config⟩ command : Step OnFileTree _) =
      (fun _ => {}) <$> runSnapshot ⟨g, config⟩ command := by
  cases command with
  | renderQueues | renderCluster =>
    simp only [runSnapshot, map_bind, publish_hushed]
    rfl
  | layoutQueues | listQueues | listCharts | showCluster =>
    simp only [runSnapshot, map_bind, map_pure, report_hushed]
    rfl
  | initConfig | showConfig | configPath => rfl

end

theorem configFile_hushed : configFile env g.hushed = configFile env g := rfl

theorem writeConfig_hushed (force : Bool) :
    (writeConfig env g.hushed force : Step OnFileTree _) = (fun _ => {}) <$> writeConfig env g force := by
  rw [writeConfig, writeConfig, configFile_hushed, map_bind]
  refine bind_congr fun present => ?_
  by_cases hkept : (present && !force) = true
  · simp only [if_pos hkept, map_bind, map_pure, notice_hushed]
  · simp only [if_neg hkept, map_bind, map_pure, notice_hushed]

theorem printConfig_hushed :
    (printConfig env g.hushed : Step OnFileTree _) = (fun _ => {}) <$> printConfig env g := by
  rw [printConfig, printConfig, configFile_hushed, map_bind]
  refine bind_congr fun present => ?_
  by_cases hpresent : present = true
  · simp only [if_pos hpresent, map_bind]
    refine bind_congr fun config => ?_
    cases config.toToml with
    | none => rfl
    | some text => simp only [map_pure, printed_hushed]
  · simp only [if_neg hpresent, pure_bind]
    cases ({} : Config).toToml with
    | none => rfl
    | some text => simp only [map_pure, printed_hushed]

/-- **A quiet run does all that the run aloud does,** with the same warnings and the same end, and says nothing. -/
theorem run_hushed (command : Command) :
    (run env g.hushed command : Step OnFileTree _) = (fun _ => {}) <$> run env g command := by
  cases command with
  | initConfig force => exact writeConfig_hushed force
  | showConfig => exact printConfig_hushed
  | configPath => simp only [run, map_pure, printed_hushed]
  | renderQueues | layoutQueues | listQueues | listCharts | renderCluster | showCluster =>
    simp only [run, map_bind, runSnapshot_hushed]
    rfl

/-- The quiet run of a command line ends with the same code and leaves the same files, and the output is empty. -/
theorem runLine_hushed {quiet : List String} (h : parse (Config.Environment.lookup env) words = .ok (g, command))
    (hquiet : parse (Config.Environment.lookup env) quiet = .ok (g.hushed, command)) (t : FileTree) :
    let aloud := (runLine env words : OnFileTree Outcome).run t
    (runLine env quiet : OnFileTree Outcome).run t = ({ aloud.1 with printed := {} }, aloud.2) ∧
      ({ aloud.1 with printed := {} } : Outcome).standardOutput = "" := by
  dsimp only
  rw [runLine_run, runLine_run, h, hquiet]
  dsimp only
  rw [run_hushed, on_map]
  rcases (run env g command : Step OnFileTree _).on [] t with ⟨⟨result, warnings⟩, after⟩
  cases result <;> exact ⟨rfl, rfl⟩

end Command

end QueueBoard
