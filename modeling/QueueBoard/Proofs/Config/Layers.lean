import QueueBoard.Proofs.Command.Configuration
import QueueBoard.Proofs.Config.Setting
import QueueBoard.Proofs.Files.Growing
import QueueBoard.Proofs.Toml.RoundTrip
/-!
# The layers of a configuration

A configuration that is loaded has for each of its eight settings what the environment gives for it, else what
the file gives, else the built-in value (`load_layers`). A table of the file that is written as a list gives the
settings in their order, but only as long as the environment gives none of that table; with such a file no setting
can be told from the others (`layers_list_interfere`).
-/

namespace QueueBoard.Config

open Setting

/-! ## Names -/

/-- The settings of a configuration. -/
inductive Name where
  | canvasWidth
  | queuesFile
  | metricsFile
  | animate
  | output
  | tickMs
  | renderMs
  | doubleClickMs
  deriving Repr, DecidableEq

namespace Name

/-- The table of a setting. -/
def table : Name → String
  | tickMs | renderMs | doubleClickMs => "tui"
  | _ => "defaults"

/-- The key of a setting in its table. -/
def key : Name → String
  | canvasWidth => "canvas_width"
  | queuesFile => "queues_file"
  | metricsFile => "metrics_file"
  | animate => "animate"
  | output => "output"
  | tickMs => "tick_ms"
  | renderMs => "render_ms"
  | doubleClickMs => "double_click_ms"

/-- The place of a setting in its table, if that is a list. -/
def place : Name → Nat
  | canvasWidth | tickMs => 0
  | queuesFile | renderMs => 1
  | metricsFile | doubleClickMs => 2
  | animate => 3
  | output => 4

/-- The path of a setting. -/
def path (n : Name) : List String := [n.table, n.key]

/-- The variable of a setting. -/
def inEnvironment (n : Name) : String := "QUEUESCOPE_" ++ n.table.toUpper ++ "__" ++ n.key.toUpper

/-- The built-in value of a setting. -/
def builtIn : Name → Setting
  | canvasWidth => .number 1600
  | queuesFile | metricsFile => .unset
  | animate => .flag true
  | output => .text "table"
  | tickMs => .whole 1000
  | renderMs => .whole 33
  | doubleClickMs => .whole 400

/-- A configuration has what a setting of this name is read as. -/
def Holds (n : Name) (s : Setting) (c : Config) : Prop :=
  match n with
  | canvasWidth => asNumber s = .ok c.defaults.canvasWidth
  | queuesFile => asOptionalText s = .ok c.defaults.queuesFile
  | metricsFile => asOptionalText s = .ok c.defaults.metricsFile
  | animate => asFlag s = .ok c.defaults.animate
  | output => asText s = .ok c.defaults.output
  | tickMs => asNat s = .ok c.timing.tickMs
  | renderMs => asNat s = .ok c.timing.renderMs
  | doubleClickMs => asNat s = .ok c.timing.doubleClickMs

theorem path?_inEnvironment (n : Name) : Environment.path? n.inEnvironment = some n.path := by
  cases n <;> decide +kernel

theorem path_injective {n n' : Name} (h : n.path = n'.path) : n = n' := by
  cases n <;> cases n' <;> first | rfl | simp [path, table, key] at h

theorem Holds.of_covers {n : Name} {s given : Setting} {c : Config} (h : n.Holds s c) (hs : s.Covers given) :
    n.Holds given c := by
  rcases hs with rfl | ⟨members, rfl⟩
  · exact h
  · cases n <;> cases h

/-- The names are all there is of a configuration. -/
theorem eq_of_holds {c c' : Config} {given : Name → Setting} (h : ∀ n : Name, n.Holds (given n) c)
    (h' : ∀ n : Name, n.Holds (given n) c') : c = c' := by
  obtain ⟨⟨width, queues, metrics, animated, out⟩, ⟨tick, render, double⟩⟩ := c
  obtain ⟨⟨width', queues', metrics', animated', out'⟩, ⟨tick', render', double'⟩⟩ := c'
  cases (h canvasWidth).symm.trans (h' canvasWidth)
  cases (h queuesFile).symm.trans (h' queuesFile)
  cases (h metricsFile).symm.trans (h' metricsFile)
  cases (h animate).symm.trans (h' animate)
  cases (h output).symm.trans (h' output)
  cases (h tickMs).symm.trans (h' tickMs)
  cases (h renderMs).symm.trans (h' renderMs)
  cases (h doubleClickMs).symm.trans (h' doubleClickMs)
  rfl

/-! ## Reading -/

/-- What a key that could be set has read. -/
theorem set_ok {ρ β : Type} {read : Except Fault β} {put : β → ρ} {r : ρ}
    (h : (match read with | .ok b => .ok (put b) | .error fault => .error ⟨fault, []⟩ : Except Setting.Error ρ) =
      .ok r) : ∃ b, read = .ok b ∧ r = put b := by
  cases read with
  | ok b =>
    cases h
    exact ⟨b, rfl, rfl⟩
  | error fault => cases h

theorem sets_defaults {n : Name} (hn : n.table = "defaults") (timing : Timing) :
    Sets defaultKeys n.place n.key fun s defaults => n.Holds s { defaults, timing } where
  set := by
    cases n
    case tickMs | renderMs | doubleClickMs => exact absurd hn (by decide)
    all_goals
      refine ⟨_, rfl, rfl, fun s r r' h => ?_⟩
      obtain ⟨b, hb, rfl⟩ := set_ok h
      exact hb
  other i k hi hne := by
    cases n
    case tickMs | renderMs | doubleClickMs => exact absurd hn (by decide)
    all_goals
      rcases i with _ | _ | _ | _ | _ | i <;> cases hi
      all_goals first
        | exact absurd rfl hne
        | refine ⟨by decide, fun s r r' h held hheld => ?_⟩
          obtain ⟨b, hb, rfl⟩ := set_ok h
          exact hheld

theorem sets_timing {n : Name} (hn : n.table = "tui") (defaults : Defaults) :
    Sets timingKeys n.place n.key fun s timing => n.Holds s { defaults, timing } where
  set := by
    cases n
    case tickMs | renderMs | doubleClickMs =>
      refine ⟨_, rfl, rfl, fun s r r' h => ?_⟩
      obtain ⟨b, hb, rfl⟩ := set_ok h
      exact hb
    all_goals exact absurd hn (by decide)
  other i k hi hne := by
    cases n
    case tickMs | renderMs | doubleClickMs =>
      rcases i with _ | _ | _ | i <;> cases hi
      all_goals first
        | exact absurd rfl hne
        | refine ⟨by decide, fun s r r' h held hheld => ?_⟩
          obtain ⟨b, hb, rfl⟩ := set_ok h
          exact hheld
    all_goals exact absurd hn (by decide)

/-- The place of the table of a setting. -/
def tablePlace (n : Name) : Nat := if n.table = "defaults" then 0 else 1

theorem table_cases (n : Name) : n.table = "defaults" ∨ n.table = "tui" := by
  cases n <;> decide

theorem holds_builtIn_defaults {n : Name} (hn : n.table = "defaults") (timing : Timing) :
    n.Holds n.builtIn { timing } := by
  cases n
  case tickMs | renderMs | doubleClickMs => exact absurd hn (by decide)
  all_goals rfl

theorem holds_builtIn_timing {n : Name} (hn : n.table = "tui") (defaults : Defaults) :
    n.Holds n.builtIn { defaults } := by
  cases n
  case tickMs | renderMs | doubleClickMs => rfl
  all_goals exact absurd hn (by decide)

theorem holds_defaults {n : Name} (hn : n.table = "defaults") {s : Setting} {c : Config} (timing : Timing) :
    n.Holds s { c with timing } ↔ n.Holds s c := by
  cases n
  case tickMs | renderMs | doubleClickMs => exact absurd hn (by decide)
  all_goals exact Iff.rfl

theorem holds_timing {n : Name} (hn : n.table = "tui") {s : Setting} {c : Config} (defaults : Defaults) :
    n.Holds s { c with defaults } ↔ n.Holds s c := by
  cases n
  case tickMs | renderMs | doubleClickMs => exact Iff.rfl
  all_goals exact absurd hn (by decide)

/-- What a configuration has of a name once the table of the name is read. -/
theorem sets_tables (n : Name) :
    Sets tableKeys n.tablePlace n.table fun t c =>
      t.Distinct → n.Holds ((t.part? n.key n.place).getD n.builtIn) c := by
  rcases n.table_cases with hn | hn
  · have hplace : n.tablePlace = 0 := if_pos hn
    rw [hplace, hn]
    refine ⟨⟨_, rfl, rfl, fun t c c' h ht => ?_⟩, fun i k hi hne => ?_⟩
    · obtain ⟨defaults, hrecord, rfl⟩ := map_eq_ok h
      exact (sets_defaults hn c.timing).asRecord ht hrecord (holds_builtIn_defaults hn _)
    · rcases i with _ | _ | i <;> cases hi
      · exact absurd rfl hne
      · refine ⟨by decide, fun t c c' h held hheld ht => ?_⟩
        obtain ⟨timing, hrecord, rfl⟩ := map_eq_ok h
        exact (holds_defaults hn timing).2 (hheld ht)
  · have hplace : n.tablePlace = 1 := if_neg (by rw [hn]; decide)
    rw [hplace, hn]
    refine ⟨⟨_, rfl, rfl, fun t c c' h ht => ?_⟩, fun i k hi hne => ?_⟩
    · obtain ⟨timing, hrecord, rfl⟩ := map_eq_ok h
      exact (sets_timing hn c.defaults).asRecord ht hrecord (holds_builtIn_timing hn _)
    · rcases i with _ | _ | i <;> cases hi
      · refine ⟨by decide, fun t c c' h held hheld ht => ?_⟩
        obtain ⟨defaults, hrecord, rfl⟩ := map_eq_ok h
        exact (holds_timing hn defaults).2 (hheld ht)
      · exact absurd rfl hne

/-- A configuration has of every name what the table of that name gives. -/
theorem holds_of_ofSetting (n : Name) {members : List (String × Setting)} {t : Setting} {c : Config}
    (hnames : DistinctNames members) (hlookup : members.lookup n.table = some t) (ht : t.Distinct)
    (h : ofSetting (.table members) = .ok c) : n.Holds ((t.part? n.key n.place).getD n.builtIn) c := by
  have hbuiltIn : (Setting.table []).Distinct →
      n.Holds (((Setting.table []).part? n.key n.place).getD n.builtIn) {} := by
    intro
    rcases n.table_cases with hn | hn
    · exact holds_builtIn_defaults hn {}
    · exact holds_builtIn_timing hn {}
  have hmembers : (Setting.table members).Distinct := hnames
  have hholds := n.sets_tables.asRecord hmembers h hbuiltIn
  rw [part?, hlookup] at hholds
  exact hholds ht

end Name

/-! ## The environment -/

namespace Environment

variable {env : Variables} {v : String × String} {n : Name} {p : List String}

/-- What the environment gives under a path: the last variable of the path counts. -/
def value? (env : Variables) (path : List String) : Option Setting :=
  (env.reverse.find? fun v => path? v.1 == some path).map fun v => ofValue v.2

/-- Whether a variable gives something in a table. -/
def sets (env : Variables) (table : String) : Bool :=
  env.any fun v => (path? v.1).any fun path => path.head? == some table

/-- A variable that is no setting at all, is one of the eight, or has a single name which is that of no table. -/
def IsKnown (name : String) : Prop :=
  ∀ path, path? name = some path →
    (∃ n : Name, path = n.path) ∨ ∃ part, path = [part] ∧ part ≠ "defaults" ∧ part ≠ "tui"

theorem layer_concat (env : Variables) (v : String × String) :
    layer (env ++ [v]) =
      match path? v.1 with
      | some path => (layer env).overlay ((ofValue v.2).nest path)
      | none => layer env := by
  rw [layer, List.foldl_append]
  rfl

theorem value?_concat (env : Variables) (v : String × String) (p : List String) :
    value? (env ++ [v]) p = if path? v.1 = some p then some (ofValue v.2) else value? env p := by
  rw [value?, List.reverse_append]
  by_cases h : path? v.1 = some p
  · simp [h]
  · have hne : (path? v.1 == some p) = false := by simpa using h
    simp [h, hne, value?]

theorem sets_concat (env : Variables) (v : String × String) (table : String) :
    sets (env ++ [v]) table = (sets env table || (path? v.1).any fun path => path.head? == some table) := by
  simp [sets]

theorem value?_of_not_sets (h : sets env n.table = false) : value? env n.path = none := by
  rw [value?, Option.map_eq_none_iff, List.find?_eq_none]
  intro v hv hpath
  have hset := List.any_eq_false.1 h v (List.mem_reverse.1 hv)
  rw [beq_iff_eq.1 hpath] at hset
  simp [Name.path] at hset

/-- What the layer of the environment holds: for each table of which a variable gives something, the values of its
variables. -/
structure Layered (env : Variables) (members : List (String × Setting)) : Prop where
  names : DistinctNames members
  given : ∀ n : Name, sets env n.table = true → ∃ inner, members.lookup n.table = some (.table inner) ∧
    DistinctNames inner ∧ Option.Rel Covers (inner.lookup n.key) (value? env n.path)
  absent : ∀ n : Name, sets env n.table = false → members.lookup n.table = none

theorem lookup_single (name other : String) (s : Setting) :
    [(name, s)].lookup other = if other = name then some s else none := by
  rw [lookup_cons_eq_ite, List.lookup_nil]

theorem distinctNames_single (name : String) (s : Setting) : DistinctNames [(name, s)] := by
  simp [DistinctNames]

/-- A variable without a table goes by. -/
theorem Layered.passed_over {members : List (String × Setting)} (h : Layered env members) {part : String}
    (hv : path? v.1 = some [part]) (hpart : part ≠ "defaults" ∧ part ≠ "tui") :
    Layered (env ++ [v]) (overlayMembers members [(part, ofValue v.2)]) := by
  have hne : ∀ n : Name, n.table ≠ part := by
    intro n hn
    rcases n.table_cases with h | h
    · exact hpart.1 (hn.symm.trans h)
    · exact hpart.2 (hn.symm.trans h)
  have hsets : ∀ n : Name, sets (env ++ [v]) n.table = sets env n.table := by
    intro n
    simp [sets_concat, hv, (hne n).symm]
  have hlookup : ∀ n : Name, (overlayMembers members [(part, ofValue v.2)]).lookup n.table =
      members.lookup n.table := by
    intro n
    rw [lookup_overlayMembers (distinctNames_single _ _), lookup_single, if_neg (hne n), under]
  refine ⟨distinctNames_overlayMembers h.names _, fun n hn => ?_, fun n hn => ?_⟩
  · have hpath : path? v.1 ≠ some n.path := by simp [hv, Name.path]
    rw [hlookup, value?_concat, if_neg hpath]
    exact h.given n (hsets n ▸ hn)
  · rw [hlookup]
    exact h.absent n (hsets n ▸ hn)

/-- Where a table gives what the variables so far give, it does so with one more variable of that table. -/
theorem given_put {inner : List (String × Setting)} {m : Name} (hv : path? v.1 = some m.path)
    (htable : n.table = m.table) (h : Option.Rel Covers (inner.lookup n.key) (value? env n.path)) :
    Option.Rel Covers ((overlayMembers inner [(m.key, ofValue v.2)]).lookup n.key) (value? (env ++ [v]) n.path) := by
  rw [lookup_overlayMembers (distinctNames_single _ _), lookup_single, value?_concat]
  by_cases hn : n = m
  · rw [if_pos (hn ▸ rfl), if_pos (hn ▸ hv)]
    cases inner.lookup n.key with
    | none => exact .some (.inl rfl)
    | some below => exact .some (covers_overlay _ _)
  · have hkey : n.key ≠ m.key := fun heq => hn (Name.path_injective (by rw [Name.path, Name.path, htable, heq]))
    have hpath : path? v.1 ≠ some n.path := fun heq =>
      hn (Name.path_injective (Option.some_inj.1 (heq.symm.trans hv)))
    rw [if_neg hkey, if_neg hpath]
    exact h

/-- A variable for a setting is put into the table of the setting. -/
theorem Layered.put {members : List (String × Setting)} (h : Layered env members) {m : Name}
    (hv : path? v.1 = some m.path) :
    Layered (env ++ [v]) (overlayMembers members [(m.table, .table [(m.key, ofValue v.2)])]) := by
  have hlookup : ∀ name, (overlayMembers members [(m.table, .table [(m.key, ofValue v.2)])]).lookup name =
      under (members.lookup name) (if name = m.table then some (.table [(m.key, ofValue v.2)]) else none) := by
    intro name
    rw [lookup_overlayMembers (distinctNames_single _ _), lookup_single]
  have hsets : ∀ n : Name, sets (env ++ [v]) n.table = (sets env n.table || m.table == n.table) := by
    intro n
    simp [sets_concat, hv, Name.path]
  refine ⟨distinctNames_overlayMembers h.names _, fun n hn => ?_, fun n hn => ?_⟩
  · rw [hlookup]
    by_cases htable : n.table = m.table
    · rw [if_pos htable]
      cases hbefore : sets env n.table with
      | true =>
        obtain ⟨inner, hinner, hnames, hgiven⟩ := h.given n hbefore
        rw [hinner]
        exact ⟨_, rfl, distinctNames_overlayMembers hnames _, given_put hv htable hgiven⟩
      | false =>
        rw [h.absent n hbefore]
        have hgiven : Option.Rel Covers (List.lookup n.key []) (value? env n.path) := by
          rw [value?_of_not_sets hbefore]
          exact .none
        exact ⟨_, rfl, distinctNames_single _ _, given_put hv htable hgiven⟩
    · have hne : path? v.1 ≠ some n.path := fun h =>
        htable (by rw [Name.path_injective (Option.some_inj.1 (h.symm.trans hv))])
      rw [if_neg htable, value?_concat, if_neg hne]
      exact h.given n (by simpa [hsets, Ne.symm htable] using hn)
  · rw [hsets, Bool.or_eq_false_iff, beq_eq_false_iff_ne] at hn
    rw [hlookup, if_neg hn.2.symm]
    exact h.absent n hn.1

theorem exists_layered (h : ∀ v ∈ env, IsKnown v.1) : ∃ members, layer env = .table members ∧ Layered env members := by
  induction env using List.reverseRecOn with
  | nil => exact ⟨[], rfl, List.nodup_nil, fun n hn => absurd hn (by simp [sets]), fun n _ => rfl⟩
  | append_singleton env v ih =>
    obtain ⟨members, hlayer, hlayered⟩ := ih fun w hw => h w (List.mem_append_left _ hw)
    rw [layer_concat, hlayer]
    cases hpath : path? v.1 with
    | none =>
      refine ⟨members, rfl, hlayered.names, fun n hn => ?_, fun n hn => ?_⟩
      · rw [sets_concat, hpath] at hn
        rw [value?_concat, hpath, if_neg (by simp)]
        exact hlayered.given n (by simpa using hn)
      · rw [sets_concat, hpath] at hn
        exact hlayered.absent n (by simpa using hn)
    | some path =>
      rcases h v (by simp) path hpath with ⟨m, rfl⟩ | ⟨part, rfl, hpart⟩
      · exact ⟨_, rfl, hlayered.put hpath⟩
      · exact ⟨_, rfl, hlayered.passed_over hpath hpart⟩

end Environment

/-! ## The file -/

variable {env : Environment.Variables} {path : String} {t : FileTree} {c : Config}

/-- What a file gives for a setting. A list gives the settings of a table in their order, but only as long as the
environment gives none of them. -/
def given? (env : Environment.Variables) (file : List (String × Setting)) (n : Name) : Option Setting :=
  (file.lookup n.table).bind fun t =>
    match t with
    | .list items => if Environment.sets env n.table then none else items[n.place]?
    | t => t.part? n.key n.place

/-- The setting in effect: the environment's, else the file's, else the built-in one. -/
def inEffect (env : Environment.Variables) (file : List (String × Setting)) (n : Name) : Setting :=
  ((Environment.value? env n.path).or (given? env file n)).getD n.builtIn

theorem names_ofMembers : ∀ members : List (String × Toml), (ofMembers members).map Prod.fst = members.map Prod.fst
  | [] => rfl
  | (name, v) :: rest => by rw [ofMembers, List.map_cons, List.map_cons, names_ofMembers rest]

theorem distinct_ofToml {v : Toml} (h : v.Distinct) : (Setting.ofToml v).Distinct := by
  cases v with
  | table members =>
    have h : (members.map Prod.fst).Nodup := h
    rw [Setting.ofToml, Setting.Distinct, DistinctNames, names_ofMembers]
    exact h
  | datetime text => exact List.nodup_nil
  | _ => trivial

theorem mem_ofMembers {m : String × Setting} : ∀ {members : List (String × Toml)}, m ∈ ofMembers members →
    ∃ v, (m.1, v) ∈ members ∧ m.2 = Setting.ofToml v
  | (name, v) :: rest, h => by
    rw [ofMembers] at h
    rcases List.mem_cons.1 h with rfl | h
    · exact ⟨v, List.mem_cons_self, rfl⟩
    · obtain ⟨w, hw, heq⟩ := mem_ofMembers h
      exact ⟨w, List.mem_cons_of_mem _ hw, heq⟩

/-- The layer of a file is a table that names nothing twice, and neither do the tables in it. -/
theorem layerOf_distinct {file : Setting} (h : layerOf t path = .ok file) :
    ∃ members, file = .table members ∧ DistinctNames members ∧ ∀ m ∈ members, m.2.Distinct := by
  rw [layerOf] at h
  split at h
  · cases h
    exact ⟨[], rfl, List.nodup_nil, by simp⟩
  · split at h
    · rw [fileLayer] at h
      split at h
      · rename_i members hparse
        cases h
        obtain ⟨hnames, hmembers⟩ := Toml.parse_distinct hparse
        refine ⟨ofMembers members, rfl, by rwa [DistinctNames, names_ofMembers], fun m hm => ?_⟩
        obtain ⟨v, hv, hm⟩ := mem_ofMembers hm
        rw [hm]
        exact distinct_ofToml (hmembers _ hv)
      · cases h
    · cases h

theorem builtIn_table (n : Name) : ∃ tables inner, builtIn = .table tables ∧ DistinctNames tables ∧
    tables.lookup n.table = some (.table inner) ∧ DistinctNames inner ∧ inner.lookup n.key = some n.builtIn := by
  cases n <;> exact ⟨_, _, rfl, by unfold DistinctNames; decide, rfl, by unfold DistinctNames; decide, rfl⟩

/-- The lower two layers of a table: a list or a plain value of the file, or the built-in table with what the file
gives in it. -/
theorem lower_cases {file inner : List (String × Setting)} {n : Name} (hfile : ∀ m ∈ file, m.2.Distinct)
    (hinner : DistinctNames inner) :
    (∃ lower, under (some (.table inner)) (file.lookup n.table) = some (.table lower) ∧ DistinctNames lower ∧
      lower.lookup n.key = under (inner.lookup n.key) (given? env file n)) ∨
    ∃ t, under (some (.table inner)) (file.lookup n.table) = some t ∧ (∀ members, t ≠ .table members) ∧
      given? env file n = if Environment.sets env n.table then none else t.part? n.key n.place := by
  cases htable : file.lookup n.table with
  | none => exact .inl ⟨inner, rfl, hinner, by simp [given?, htable, under]⟩
  | some t =>
    cases t with
    | table members =>
      have hmembers : DistinctNames members := hfile _ (mem_of_lookup htable)
      refine .inl ⟨overlayMembers inner members, rfl, distinctNames_overlayMembers hinner _, ?_⟩
      rw [lookup_overlayMembers hmembers, given?, htable]
      rfl
    | list items =>
      refine .inr ⟨.list items, rfl, by simp, ?_⟩
      rw [given?, htable]
      rfl
    | _ =>
      refine .inr ⟨_, rfl, by simp [overlay], ?_⟩
      rw [given?, htable]
      split <;> rfl

theorem none_under (above : Option Setting) : under none above = above := by
  cases above <;> rfl

/-- What the environment gives over what the file gives, where the values are given up to tables. -/
theorem covers_under {lower upper value given : Option Setting} {b : Setting}
    (hlower : (lower.getD b).Covers (given.getD b)) (hupper : Option.Rel Covers upper value) :
    ((under lower upper).getD b).Covers ((value.or given).getD b) := by
  cases hupper with
  | none => cases lower <;> exact hlower
  | some hcovers =>
    cases lower with
    | none => exact hcovers
    | some below => exact (covers_overlay _ _).trans hcovers

/-- What the layers give for a setting is the setting in effect, or a table in its place. -/
theorem covers_inEffect {file members inner : List (String × Setting)} {n : Name} (hfile : ∀ m ∈ file, m.2.Distinct)
    (hmembers : Environment.Layered env members) (hinner : DistinctNames inner)
    (hbuiltIn : inner.lookup n.key = some n.builtIn) :
    ∃ t, under (under (some (.table inner)) (file.lookup n.table)) (members.lookup n.table) = some t ∧ t.Distinct ∧
      ((t.part? n.key n.place).getD n.builtIn).Covers (inEffect env file n) := by
  rcases lower_cases hfile hinner with ⟨lower, hlower, hnames, hlookup⟩ | ⟨t, ht, hplain, hgiven⟩
  · have hcovers : ((lower.lookup n.key).getD n.builtIn).Covers ((given? env file n).getD n.builtIn) := by
      rw [hlookup, hbuiltIn]
      cases given? env file n with
      | none => exact .inl rfl
      | some s => exact covers_overlay _ _
    rw [hlower]
    cases hsets : Environment.sets env n.table with
    | false =>
      rw [hmembers.absent n hsets]
      refine ⟨_, rfl, hnames, ?_⟩
      rw [inEffect, Environment.value?_of_not_sets hsets, Option.none_or]
      exact hcovers
    | true =>
      obtain ⟨upper, hupper, hupperNames, hvalues⟩ := hmembers.given n hsets
      rw [hupper]
      refine ⟨_, rfl, distinctNames_overlayMembers hnames _, ?_⟩
      show (((overlayMembers lower upper).lookup n.key).getD n.builtIn).Covers _
      rw [lookup_overlayMembers hupperNames]
      exact covers_under hcovers hvalues
  · rw [ht, inEffect, hgiven]
    cases hsets : Environment.sets env n.table with
    | false =>
      rw [hmembers.absent n hsets, Environment.value?_of_not_sets hsets, Option.none_or]
      refine ⟨t, rfl, ?_, .inl rfl⟩
      cases t with
      | table members => exact absurd rfl (hplain members)
      | _ => trivial
    | true =>
      -- the table of the environment takes the place of what the file gives
      obtain ⟨upper, hupper, hupperNames, hvalues⟩ := hmembers.given n hsets
      have hreplaced : overlay t (.table upper) = .table upper := by
        cases t with
        | table members => exact absurd rfl (hplain members)
        | _ => rfl
      rw [hupper, under, hreplaced]
      refine ⟨_, rfl, hupperNames, ?_⟩
      have hnone : ((none : Option Setting).getD n.builtIn).Covers ((none : Option Setting).getD n.builtIn) := .inl rfl
      have hcovers := covers_under hnone hvalues
      rw [none_under] at hcovers
      rwa [if_pos rfl]

/-- A configuration without fault has a canvas with a width, and intervals. -/
theorem of_fault?_eq_none (h : c.fault? = none) :
    c.defaults.canvasWidth.isFinite = true ∧ 0 < c.defaults.canvasWidth ∧ c.timing.tickMs ≠ 0 ∧
      c.timing.renderMs ≠ 0 := by
  rw [fault?] at h
  split at h
  · cases h
  · rename_i hwidth
    split at h
    · cases h
    · rename_i hintervals
      simp only [isWidth, Bool.not_eq_true', Bool.not_eq_false, Bool.and_eq_true, decide_eq_true_eq] at hwidth
      simp only [Bool.or_eq_true, beq_iff_eq, not_or] at hintervals
      exact ⟨hwidth.1, hwidth.2, hintervals.2, hintervals.1⟩

/-- **Layers are applied setting by setting.** A configuration that is loaded has for each setting what is in
effect for it, and nothing else has any part in it; its canvas has a width, and its intervals are not zero. -/
theorem load_layers (henv : ∀ v ∈ env, Environment.IsKnown v.1)
    (h : ((load env path : OnFileTree _).run t).1 = .ok c) :
    (∃ file, layerOf t path = .ok (.table file) ∧ (∀ n : Name, n.Holds (inEffect env file n) c) ∧
      ∀ c', (∀ n : Name, n.Holds (inEffect env file n) c') → c' = c) ∧
    c.defaults.canvasWidth.isFinite = true ∧ 0 < c.defaults.canvasWidth ∧ c.timing.tickMs ≠ 0 ∧
      c.timing.renderMs ≠ 0 := by
  rw [load_run, loaded] at h
  obtain ⟨layer, hlayer, h⟩ : ∃ layer, layerOf t path = .ok layer ∧
      ofLayers layer (Environment.layer env) = .ok c := by
    cases hlayer : layerOf t path with
    | error e => rw [hlayer] at h; cases h
    | ok layer => rw [hlayer] at h; exact ⟨layer, rfl, h⟩
  obtain ⟨file, rfl, hnames, hfile⟩ := layerOf_distinct hlayer
  obtain ⟨members, hmembers, hlayered⟩ := Environment.exists_layered henv
  rw [ofLayers, hmembers] at h
  split at h
  · cases h
  · rename_i config hconfig
    split at h
    · cases h
    · rename_i hfault
      cases h
      have hholds : ∀ n : Name, n.Holds (inEffect env file n) c := by
        intro n
        obtain ⟨tables, inner, hbuiltIn, htables, htable, hinner, hkey⟩ := builtIn_table n
        obtain ⟨t, ht, hdistinct, hcovers⟩ := covers_inEffect hfile hlayered hinner hkey
        rw [hbuiltIn] at hconfig
        refine Name.Holds.of_covers (Name.holds_of_ofSetting n ?_ ?_ hdistinct hconfig) hcovers
        · exact distinctNames_overlayMembers (distinctNames_overlayMembers htables _) _
        · rw [lookup_overlayMembers hlayered.names, lookup_overlayMembers hnames, htable, ht]
      exact ⟨⟨file, hlayer, hholds, fun c' hc' => Name.eq_of_holds hc' hholds⟩, of_fault?_eq_none hfault⟩

/-! ## A file with a table, and one with lists -/

/-- A tree with a file in the working directory. -/
def board (text : String) : FileTree := { files := [(["board.toml"], text)] }

theorem load_board {text : String} {members : List (String × Toml)} (h : Toml.parse text = some members) :
    ((load env "board.toml" : OnFileTree _).run (board text)).1 =
      ofLayers (.table (ofMembers members)) (Environment.layer env) := by
  have hread : (board text).read "board.toml" = .ok text := by
    rw [FileTree.read, FileTree.resolve_board rfl]
    rfl
  rw [load_run, loaded, layerOf, FileTree.locate_of_read hread]
  dsimp only
  rw [hread]
  dsimp only
  rw [fileLayer, h]
  rfl

theorem isKnown_inEnvironment (n : Name) : Environment.IsKnown n.inEnvironment := by
  intro path hpath
  rw [n.path?_inEnvironment] at hpath
  exact .inl ⟨n, (Option.some_inj.1 hpath).symm⟩

theorem ofLayers_board :
    ofLayers (.table [("defaults", .table [("output", .text "json")])])
      (.table [("tui", .table [("tick_ms", .whole 7)]), ("output", .text "yaml")]) =
      .ok { defaults := { output := "json" }, timing := { tickMs := 7 } } := by
  have hlayers : (builtIn.overlay (.table [("defaults", .table [("output", .text "json")])])).overlay
      (.table [("tui", .table [("tick_ms", .whole 7)]), ("output", .text "yaml")]) = .table [
        ("defaults", .table [("canvas_width", .number 1600), ("queues_file", .unset), ("metrics_file", .unset),
          ("animate", .flag true), ("output", .text "json")]),
        ("tui", .table [("tick_ms", .whole 7), ("render_ms", .whole 33), ("double_click_ms", .whole 400)]),
        ("output", .text "yaml")] := rfl
  have hdefaults : asRecord defaultKeys {} (.table [("canvas_width", .number 1600), ("queues_file", .unset),
      ("metrics_file", .unset), ("animate", .flag true), ("output", .text "json")]) = .ok { output := "json" } :=
    asRecord_defaults { output := "json" }
  have htiming : asRecord timingKeys {} (.table [("tick_ms", .whole 7), ("render_ms", .whole 33),
      ("double_click_ms", .whole 400)]) = .ok { tickMs := 7 } := asRecord_timing { tickMs := 7 }
  have hsorted : ∀ defaults tui output : Setting, sorted [("defaults", defaults), ("tui", tui), ("output", output)] =
      [("defaults", defaults), ("output", output), ("tui", tui)] := by
    intro defaults tui output
    simp [sorted, List.mergeSort]
  have hsetting : ofSetting ((builtIn.overlay (.table [("defaults", .table [("output", .text "json")])])).overlay
      (.table [("tui", .table [("tick_ms", .whole 7)]), ("output", .text "yaml")])) =
      .ok { defaults := { output := "json" }, timing := { tickMs := 7 } } := by
    rw [hlayers, ofSetting, asRecord, hsorted]
    simp only [setMembers]
    simp [tableKeys, hdefaults, htiming, within, Except.map, bind, Except.bind]
  have hfault : ({ defaults := { output := "json" }, timing := { tickMs := 7 } } : Config).fault? = none := by
    have hwidth : isWidth 1600 = true := rfl
    simp [fault?, hwidth]
  rw [ofLayers, hsetting]
  simp only [hfault]

/-- A table of the file, a variable for a setting of the other table, and one that is passed over. -/
theorem load_layers_board :
    let env := [("QUEUESCOPE_TUI__TICK_MS", "7"), ("QUEUESCOPE_OUTPUT", "yaml")]
    let t := board "[defaults]\noutput = \"json\"\n"
    let c : Config := { defaults := { output := "json" }, timing := { tickMs := 7 } }
    (∀ v ∈ env, Environment.IsKnown v.1) ∧ ((load env "board.toml" : OnFileTree _).run t).1 = .ok c ∧
    (∃ file, layerOf t "board.toml" = .ok (.table file) ∧ (∀ n : Name, n.Holds (inEffect env file n) c) ∧
      ∀ c', (∀ n : Name, n.Holds (inEffect env file n) c') → c' = c) ∧
    c.defaults.canvasWidth.isFinite = true ∧ 0 < c.defaults.canvasWidth ∧ c.timing.tickMs ≠ 0 ∧
      c.timing.renderMs ≠ 0 := by
  intro env t c
  have henv : ∀ v ∈ env, Environment.IsKnown v.1 := by
    have htick : Name.tickMs.inEnvironment = "QUEUESCOPE_TUI__TICK_MS" := by decide +kernel
    have houtput : Environment.path? "QUEUESCOPE_OUTPUT" = some ["output"] := by decide +kernel
    refine List.forall_mem_cons.2 ⟨htick ▸ isKnown_inEnvironment _, List.forall_mem_singleton.2 ?_⟩
    intro path hpath
    rw [houtput] at hpath
    exact .inr ⟨"output", (Option.some_inj.1 hpath).symm, by decide, by decide⟩
  have hparse : Toml.parse "[defaults]\noutput = \"json\"\n" =
      some [("defaults", .table [("output", .string "json")])] := by
    have hmembers : ∀ m ∈ [("output", Toml.string "json")], Toml.IsBare m.1 ∧ m.2.IsPlain :=
      List.forall_mem_singleton.2 ⟨by decide, trivial⟩
    have htables : ∀ t ∈ [("defaults", [("output", Toml.string "json")])], Toml.IsWritable t :=
      List.forall_mem_singleton.2 ⟨by decide, by simp [DistinctNames], hmembers⟩
    have hnames : DistinctNames [("defaults", [("output", Toml.string "json")])] := by simp [DistinctNames]
    exact Toml.parse_documentText htables hnames (by decide +kernel)
  have hlayer : Environment.layer env =
      .table [("tui", .table [("tick_ms", .whole 7)]), ("output", .text "yaml")] := rfl
  have hload : ((load env "board.toml" : OnFileTree _).run t).1 = .ok c := by
    rw [load_board hparse, hlayer]
    exact ofLayers_board
  exact ⟨henv, hload, load_layers henv hload⟩

/-- The settings of a file whose two tables are lists. -/
def listed : List (String × Setting) :=
  [("defaults", .list [.whole 1200, .text "q.json", .text "m.json"]), ("tui", .list [.whole 5, .whole 6, .whole 7])]

theorem load_listed :
    ((load env "board.toml" : OnFileTree _).run
      (board "defaults = [1200, \"q.json\", \"m.json\"]\ntui = [5, 6, 7]\n")).1 =
      ofLayers (.table listed) (Environment.layer env) := by
  have hparse : Toml.parse "defaults = [1200, \"q.json\", \"m.json\"]\ntui = [5, 6, 7]\n" =
      some [("defaults", .array [.integer 1200, .string "q.json", .string "m.json"]),
        ("tui", .array [.integer 5, .integer 6, .integer 7])] := by
    have hread : Toml.readStatements 54 55 "defaults = [1200, \"q.json\", \"m.json\"]\ntui = [5, 6, 7]\n".toList =
        some [.pair [] "defaults" (.array [.integer 1200, .string "q.json", .string "m.json"]),
          .pair [] "tui" (.array [.integer 5, .integer 6, .integer 7])] := rfl
    have hmark : ∀ c ∈ "defaults = [1200, \"q.json\", \"m.json\"]\ntui = [5, 6, 7]\n".toList.head?, c ≠ '\uFEFF' := by
      rintro c ⟨⟩
      decide
    exact Toml.parse_of_readStatements hmark hread
  rw [load_board hparse]
  rfl

/-- Without the environment the lists are read in their order. -/
theorem ofLayers_listed : ofLayers (.table listed) (.table []) =
    .ok { defaults := { canvasWidth := Float.ofNat 1200, queuesFile := some "q.json", metricsFile := some "m.json" },
          timing := { tickMs := 5, renderMs := 6, doubleClickMs := 7 } } := by
  have hlayers : (builtIn.overlay (.table listed)).overlay (.table []) = .table listed := rfl
  have hsetting : ofSetting (.table listed) = .ok
      { defaults := { canvasWidth := Float.ofNat 1200, queuesFile := some "q.json", metricsFile := some "m.json" },
        timing := { tickMs := 5, renderMs := 6, doubleClickMs := 7 } } := by
    rw [ofSetting, listed, asRecord, sorted_tables]
    rfl
  have hwidth : isWidth (Float.ofNat 1200) = true := by decide +kernel
  rw [ofLayers, hlayers, hsetting]
  simp [fault?, hwidth]

/-- A variable for one setting takes the place of the whole list. -/
theorem ofLayers_listed_animate :
    ofLayers (.table listed) (.table [("defaults", .table [("animate", .flag false)])]) =
    .ok { defaults := { animate := false }, timing := { tickMs := 5, renderMs := 6, doubleClickMs := 7 } } := by
  have hlayers : (builtIn.overlay (.table listed)).overlay (.table [("defaults", .table [("animate", .flag false)])]) =
      .table [("defaults", .table [("animate", .flag false)]), ("tui", .list [.whole 5, .whole 6, .whole 7])] := rfl
  have hdefaults : asRecord defaultKeys {} (.table [("animate", .flag false)]) = .ok { animate := false } := by
    rw [asRecord, show sorted [("animate", Setting.flag false)] = [("animate", .flag false)] by simp [sorted]]
    rfl
  have hsetting : ofSetting (.table [("defaults", .table [("animate", .flag false)]),
      ("tui", .list [.whole 5, .whole 6, .whole 7])]) =
      .ok { defaults := { animate := false }, timing := { tickMs := 5, renderMs := 6, doubleClickMs := 7 } } := by
    have htiming : asRecord timingKeys {} (.list [.whole 5, .whole 6, .whole 7]) =
        .ok { tickMs := 5, renderMs := 6, doubleClickMs := 7 } := rfl
    rw [ofSetting, asRecord, sorted_tables]
    simp only [setMembers]
    simp [tableKeys, hdefaults, htiming, within, Except.map, bind, Except.bind]
  have hwidth : isWidth 1600 = true := rfl
  rw [ofLayers, hlayers, hsetting]
  simp [fault?, hwidth]

/-- **A list does not give its settings one by one.** Whatever a file with lists is said to give for each setting,
there is an environment in which a setting it gives none of has another value than that. -/
theorem layers_list_interfere :
    ¬∃ given : Name → Option Setting, ∀ (env : Environment.Variables) (c : Config),
      (∀ v ∈ env, Environment.IsKnown v.1) →
      ((load env "board.toml" : OnFileTree _).run
        (board "defaults = [1200, \"q.json\", \"m.json\"]\ntui = [5, 6, 7]\n")).1 = .ok c →
      ∀ n : Name, n.Holds (((Environment.value? env n.path).or (given n)).getD n.builtIn) c := by
  rintro ⟨given, h⟩
  have hknown : Environment.IsKnown "QUEUESCOPE_DEFAULTS__ANIMATE" := by
    have hname : Name.animate.inEnvironment = "QUEUESCOPE_DEFAULTS__ANIMATE" := by decide +kernel
    exact hname ▸ isKnown_inEnvironment _
  have hlisted := h [] _ (by simp) (load_listed.trans ofLayers_listed) .queuesFile
  have hlayer : Environment.layer [("QUEUESCOPE_DEFAULTS__ANIMATE", "false")] =
      .table [("defaults", .table [("animate", .flag false)])] := rfl
  have hreplaced := h [("QUEUESCOPE_DEFAULTS__ANIMATE", "false")] _ (List.forall_mem_singleton.2 hknown)
    (load_listed.trans (hlayer ▸ ofLayers_listed_animate)) .queuesFile
  have hnone : Environment.value? [("QUEUESCOPE_DEFAULTS__ANIMATE", "false")] Name.queuesFile.path = none := by
    have hpath : Environment.path? "QUEUESCOPE_DEFAULTS__ANIMATE" = some Name.animate.path := by decide +kernel
    simp [Environment.value?, hpath, Name.path, Name.table, Name.key]
  rw [hnone] at hreplaced
  cases hlisted.symm.trans hreplaced

end QueueBoard.Config
