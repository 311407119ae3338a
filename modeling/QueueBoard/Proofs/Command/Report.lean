import QueueBoard.Proofs.Command.Configuration
import QueueBoard.Proofs.Snapshot.RoundTrip
/-!
# Snapshots printed as JSON

What is printed of a snapshot as JSON is a snapshot again, of the same queues or the same metrics
(`printed_json_accepted`): a normal form in which every field is given, under its own name.
-/

namespace QueueBoard.Command

open Json (IsText Numbers ReadsBack)

variable {env : Config.Environment.Variables} {g : Globals} {c : Context} {w : List Warning} {t : FileTree}
  {input : Option String} {path j : String} {records : List (QueueRecord Float)} {m : ClusterMetrics Float}

/-! ## Loading -/

/-- A snapshot is loaded: its file read, and what is read accepted or not. -/
theorem snapshot_on {β : Type} (parse : String → Except Snapshot.Error β) (path : String) :
    (stored do return (← (do return (← Snapshot.readFile path).bind parse : OnFileTree _)).mapError .ofSnapshot :
      Step OnFileTree β).on w t =
    (((((t.read path).mapError fun e => .unreadable path e.message).bind parse).mapError .ofSnapshot, w), t) := by
  rw [on_stored]
  rfl

theorem snapshot_on_ok {β : Type} {parse : String → Except Snapshot.Error β} {b : β} (hread : t.read path = .ok j)
    (hparse : parse j = .ok b) :
    (stored do return (← (do return (← Snapshot.readFile path).bind parse : OnFileTree _)).mapError .ofSnapshot :
      Step OnFileTree β).on w t = ((.ok b, w), t) := by
  rw [snapshot_on, hread]
  show (((parse j).mapError Error.ofSnapshot, w), t) = _
  rw [hparse]
  rfl

section Loading

variable (hread : t.read path = .ok j)
include hread

theorem loadQueues_on (hinput : c.input .queues input = .ok path)
    (hparse : Snapshot.parseQueues j = .ok records) : (loadQueues c input).on w t = ((.ok records, w), t) := by
  rw [loadQueues, on_bind, on_decided, hinput]
  exact snapshot_on_ok hread hparse

theorem loadMetrics_on (hinput : c.input .metrics input = .ok path)
    (hparse : Snapshot.parseMetrics j = .ok m) : (loadMetrics c input).on w t = ((.ok m, w), t) := by
  rw [loadMetrics, on_bind, on_decided, hinput]
  exact snapshot_on_ok hread hparse

end Loading

/-! ## Printing -/

/-- What is printed as JSON is a text of the data. -/
theorem report_isText {r : Report} (hformat : c.format = .json ∨ c.format = .jsonCompact)
    (hquiet : c.globals.quiet = false) (hnumbers : Numbers ReadsBack r.data) :
    ∃ text, (c.report r).output = String.ofList text ∧ IsText r.data text := by
  have htext : IsText r.data (r.text c.format).toList := by
    rcases hformat with hformat | hformat
    · rw [hformat]
      exact Json.isText_pretty hnumbers
    · rw [hformat]
      exact Json.isText_compact hnumbers
  have hne : (r.text c.format).isEmpty = false := by
    rw [Bool.eq_false_iff]
    intro hempty
    rw [String.isEmpty_iff.1 hempty] at htext
    exact htext.ne_nil rfl
  refine ⟨(r.text c.format).toList ++ ['\n'], ?_, htext.append_blanks rfl⟩
  rw [Context.report, printed, hquiet, hne, String.ofList_append, String.ofList_toList]
  rfl

section Running

variable {config : Config} (hload : ((loadConfig env g).on w t).1.1 = .ok config)
include hload

/-- The configuration is loaded without a warning, and no file is changed by it. -/
theorem loadConfig_on_ok : (loadConfig env g).on w t = ((.ok config, w), t) := by
  rw [loadConfig_on] at hload ⊢
  dsimp only at hload
  rw [hload]

theorem listQueues_on (h : (loadQueues ⟨g, config⟩ input).on w t = ((.ok records, w), t)) :
    ((run env g (.listQueues input)).on w t).1.1 =
      .ok ((⟨g, config⟩ : Context).report (.ofQueues records)) := by
  show ((loadConfig env g >>= fun config => runSnapshot ⟨g, config⟩ (.listQueues input)).on w t).1.1 = _
  rw [on_bind, loadConfig_on_ok hload]
  dsimp only
  rw [runSnapshot, on_bind, h]
  rfl

theorem showCluster_on {width : Float} (h : (loadMetrics ⟨g, config⟩ input).on w t = ((.ok m, w), t))
    (hwidth : (⟨g, config⟩ : Context).width = .ok width) :
    ((run env g (.showCluster input)).on w t).1.1 =
      .ok ((⟨g, config⟩ : Context).report (.ofCluster m ((ClusterDashboard.new width).load m).chartPlan)) := by
  show ((loadConfig env g >>= fun config => runSnapshot ⟨g, config⟩ (.showCluster input)).on w t).1.1 = _
  rw [on_bind, loadConfig_on_ok hload]
  dsimp only
  rw [runSnapshot, on_bind, h]
  dsimp only
  rw [on_bind, on_decided, hwidth]
  rfl

/-- **What is printed of an accepted snapshot as JSON is accepted as the same snapshot,** compact or not, given
that the text of each of its numbers is read as that number. Metrics are accepted also as the only member of an
object. -/
theorem printed_json_accepted
    (hformat : (⟨g, config⟩ : Context).format = .json ∨ (⟨g, config⟩ : Context).format = .jsonCompact)
    (hquiet : g.quiet = false) (hread : t.read path = .ok j) :
    (∀ records, (⟨g, config⟩ : Context).input .queues input = .ok path → Snapshot.parseQueues j = .ok records →
      (∀ r ∈ records, ∀ x ∈ r.numbers, x.isFinite = true → ReadsBack (.float x)) →
      ∃ p, ((run env g (.listQueues input)).on w t).1.1 = .ok p ∧
        Snapshot.parseQueues p.output = .ok records) ∧
    (∀ m width, (⟨g, config⟩ : Context).input .metrics input = .ok path → Snapshot.parseMetrics j = .ok m →
      (⟨g, config⟩ : Context).width = .ok width →
      (∀ x ∈ m.values, x.isFinite = true → ReadsBack (.float x)) →
      ∃ p, ((run env g (.showCluster input)).on w t).1.1 = .ok p ∧
        Snapshot.parseMetrics p.output = .ok m ∧
        Snapshot.parseMetrics ("\x7b\"clusterMetrics\":" ++ p.output ++ "\x7d") = .ok m) := by
  constructor
  · intro records hinput hparse hnumbers
    have hdata : Numbers ReadsBack (Report.ofQueues records).data := by
      refine .array fun item hitem => ?_
      obtain ⟨r, hr, rfl⟩ := List.mem_map.1 hitem
      exact Snapshot.numbers_ofQueueRecord (hnumbers r hr)
    obtain ⟨text, houtput, htext⟩ := report_isText hformat hquiet hdata
    refine ⟨_, listQueues_on hload (loadQueues_on hread hinput hparse), ?_⟩
    rw [houtput]
    exact Snapshot.parseQueues_of_isText (Snapshot.parseQueues_finite hparse) htext
  · intro m width hinput hparse hwidth hnumbers
    let plan := ((ClusterDashboard.new width).load m).chartPlan
    have hdata : Numbers ReadsBack (Report.ofCluster m plan).data := Snapshot.numbers_ofMetrics hnumbers
    obtain ⟨text, houtput, htext⟩ := report_isText hformat hquiet hdata
    obtain ⟨hbare, hwrapped⟩ := Snapshot.parseMetrics_of_isText (Snapshot.parseMetrics_finite hparse) htext
    refine ⟨_, showCluster_on hload (loadMetrics_on hread hinput hparse) hwidth, ?_, ?_⟩
    · rw [houtput]
      exact hbare
    · have hquote : Json.quote "clusterMetrics" = "\"clusterMetrics\"".toList := by decide +kernel
      have hsame : "\x7b\"clusterMetrics\":" ++ String.ofList text ++ "\x7d" =
          String.ofList ('\x7b' :: (Json.quote "clusterMetrics" ++ ':' :: (text ++ ['\x7d']))) := by
        rw [hquote, ← String.toList_inj]
        simp
      rw [houtput, hsame, hwrapped]

end Running

/-! ## A queue and a counter -/

/-- A queue with a line break in its name and a lenient flag. -/
def queueText : String := "[\x7b\"name\":\"a\\nb\",\"capacity\":12,\"preemptionDisabled\":\"1\"\x7d]"

/-- Metrics with one counter. -/
def metricText : String := "\x7b\"totalNodes\":12\x7d"

theorem parseQueues_queueText : Snapshot.parseQueues queueText =
    .ok [{ QueueRecord.named "a\nb" with capacity := 12, preemptionDisabled := some true }] := by
  have hparse : Json.parse queueText = some (.array [.object [("capacity", .natural 12),
      ("name", .string "a\nb"), ("preemptionDisabled", .string "1")]]) := rfl
  have hrecord : Snapshot.asQueueRecord (.object [("capacity", .natural 12), ("name", .string "a\nb"),
      ("preemptionDisabled", .string "1")]) =
        .ok { QueueRecord.named "a\nb" with capacity := 12, preemptionDisabled := some true } := by
    simp [Snapshot.asQueueRecord, Json.asRecord, Json.setMembers, Snapshot.recordFields, Json.field, Except.map,
      bind, Except.bind, Json.asString, Json.asFloat, Snapshot.asFlag, Json.natural, Json.Number.toFloat,
      QueueRecord.named]
    rfl
  rw [Snapshot.parseQueues_array hparse, Json.asList, List.mapM_cons, hrecord]
  rfl

theorem parseMetrics_metricText :
    Snapshot.parseMetrics metricText = .ok { ClusterMetrics.zero with totalNodes := 12 } := by
  have hparse : Json.parse metricText = some (.object [("totalNodes", .natural 12)]) := rfl
  have hmetrics : Snapshot.asMetrics (.object [("totalNodes", .natural 12)]) =
      .ok { ClusterMetrics.zero with totalNodes := 12 } := by
    simp [Snapshot.asMetrics, Json.asRecord, Json.setMembers, Snapshot.metricFields, Json.field, Except.map,
      bind, Except.bind, Json.asFloat, Json.natural, Json.Number.toFloat, ClusterMetrics.counters]
    rfl
  have hnone : List.lookup "clusterMetrics" [("totalNodes", Json.natural 12)] = none := rfl
  rw [Snapshot.parseMetrics_object hparse, hnone, Option.getD_none, hmetrics]
  rfl

theorem readsBack_of_nearest {x : Float} {n : Nat} {e : Int} {text : String}
    (htext : (Json.Number.float x).text = text)
    (hparse : Json.parse text = (Json.decimalNumber false n e).map Json.number)
    (hnearest : Decimal.nearest n e = x) (hfinite : x.isFinite = true) : ReadsBack (.float x) := by
  rw [ReadsBack, htext, hparse, Json.decimalNumber, hnearest, if_pos hfinite]
  rfl

theorem readsBack_zero : ReadsBack (.float 0) := by
  have htext : (Json.Number.float 0).text = "0.0" := rfl
  have hparse : Json.parse "0.0" = (Json.decimalNumber false 0 (-1)).map Json.number := rfl
  exact readsBack_of_nearest htext hparse rfl rfl

theorem readsBack_twelve : ReadsBack (.float 12) := by
  have htext : (Json.Number.float 12).text = "12.0" := rfl
  have hparse : Json.parse "12.0" = (Json.decimalNumber false 120 (-1)).map Json.number := rfl
  exact readsBack_of_nearest htext hparse rfl rfl

/-- A file of the queue, and one of the counter. -/
theorem printed_json_accepted_board :
    let g : Globals := { output := some .json, width := some 800 }
    let holding (j : String) : FileTree := { files := [(["board.toml"], j)] }
    let r : QueueRecord Float :=
      { QueueRecord.named "a\nb" with capacity := 12, preemptionDisabled := some true }
    let m : ClusterMetrics Float := { ClusterMetrics.zero with totalNodes := 12 }
    (∃ config, ((loadConfig [] g).on [] (holding queueText)).1.1 = .ok config ∧
      (holding queueText).read "board.toml" = .ok queueText ∧ Snapshot.parseQueues queueText = .ok [r] ∧
      (∀ x ∈ r.numbers, ReadsBack (.float x)) ∧
      ∃ p, ((run [] g (.listQueues (some "board.toml"))).on [] (holding queueText)).1.1 = .ok p ∧
        Snapshot.parseQueues p.output = .ok [r]) ∧
    ∃ config, ((loadConfig [] g).on [] (holding metricText)).1.1 = .ok config ∧
      (holding metricText).read "board.toml" = .ok metricText ∧ Snapshot.parseMetrics metricText = .ok m ∧
      (⟨g, config⟩ : Context).width = .ok 800 ∧ (∀ x ∈ m.values, ReadsBack (.float x)) ∧
      ∃ p, ((run [] g (.showCluster (some "board.toml"))).on [] (holding metricText)).1.1 = .ok p ∧
        Snapshot.parseMetrics p.output = .ok m ∧
        Snapshot.parseMetrics ("\x7b\"clusterMetrics\":" ++ p.output ++ "\x7d") = .ok m := by
  intro g holding r m
  have hread : ∀ j, (holding j).read "board.toml" = .ok j := by
    intro j
    rw [FileTree.read, FileTree.resolve_board rfl]
    rfl
  have hnumbers : ∀ x ∈ r.numbers, ReadsBack (.float x) := by
    intro x hx
    have hx : x ∈ [12, 0, 0, 0, 0, 0] := hx
    have hvalue : x = 12 ∨ x = 0 := by simpa using hx
    rcases hvalue with rfl | rfl
    · exact readsBack_twelve
    · exact readsBack_zero
  have hvalues : ∀ x ∈ m.values, ReadsBack (.float x) := by
    intro x hx
    have hx : x ∈ List.replicate 17 0 ++ 12 :: List.replicate 5 0 := hx
    have hvalue : x = 0 ∨ x = 12 := by simpa [or_comm] using hx
    rcases hvalue with rfl | rfl
    · exact readsBack_zero
    · exact readsBack_twelve
  obtain ⟨queueConfig, hqueueConfig⟩ : ∃ c, ((loadConfig [] g).on [] (holding queueText)).1.1 = .ok c :=
    loadConfig_of_no_path rfl
  obtain ⟨metricConfig, hmetricConfig⟩ : ∃ c, ((loadConfig [] g).on [] (holding metricText)).1.1 = .ok c :=
    loadConfig_of_no_path rfl
  have hwidth : (⟨g, metricConfig⟩ : Context).width = .ok 800 := by
    have hvalid : Config.isWidth 800 = true := by decide +kernel
    exact if_pos hvalid
  refine ⟨⟨queueConfig, hqueueConfig, hread _, parseQueues_queueText, hnumbers, ?_⟩,
    metricConfig, hmetricConfig, hread _, parseMetrics_metricText, hwidth, hvalues, ?_⟩
  · exact (printed_json_accepted hqueueConfig (Or.inl rfl) rfl (hread queueText)).1 [r] rfl
      parseQueues_queueText (by simpa using fun x hx _ => hnumbers x hx)
  · exact (printed_json_accepted hmetricConfig (Or.inl rfl) rfl (hread metricText)).2 m 800 rfl
      parseMetrics_metricText hwidth fun x hx _ => hvalues x hx

end QueueBoard.Command
