import QueueBoard.Proofs.Json.RoundTrip
import QueueBoard.Proofs.Snapshot.Numbers
/-!
# Snapshots read back

The JSON form of queues and of metrics is read as the same queues and metrics, in every text of it and in
whatever order the members come (`parseQueues_of_isText`, `parseMetrics_of_isText`). What has to be assumed is
that the text of each number is read as that number.
-/

namespace QueueBoard.Snapshot

open Json

/-! ## Values -/

section Values

variable {x : Float}

theorem float_eq (h : x.isFinite = true) : Json.float x = .number (.float x) := if_pos h

theorem asFloat_float (h : x.isFinite = true) : asFloat (.float x) = .ok x := by
  rw [float_eq h]
  rfl

theorem asOptional_string (o : Option String) : asOptional asString (.optional .string o) = .ok o := by
  cases o <;> rfl

theorem asOptional_float {o : Option Float} (h : ∀ x ∈ o, x.isFinite = true) :
    asOptional asFloat (.optional .float o) = .ok o := by
  cases o with
  | none => rfl
  | some x =>
    have hx : asOptional asFloat (.float x) = .ok (some x) := by
      rw [float_eq (h x rfl)]
      rfl
    exact hx

theorem asFlag_boolean (o : Option Bool) : asFlag (.optional .boolean o) = .ok o := by
  cases o <;> rfl

/-- A list is read back if each of its entries is. -/
theorem asList_map {β : Type} {read : Json → Except ShapeError β} {write : β → Json} {entries : List β}
    (h : ∀ b ∈ entries, read (write b) = .ok b) : asList read (.array (entries.map write)) = .ok entries := by
  show (entries.map write).mapM read = .ok entries
  induction entries with
  | nil => rfl
  | cons b entries ih =>
    obtain ⟨hfirst, hrest⟩ := List.forall_mem_cons.1 h
    rw [List.map_cons, List.mapM_cons, hfirst, ih hrest]
    rfl

theorem normal_float (x : Float) : (Json.float x).normal = .float x := by
  rw [Json.float]
  split <;> rfl

theorem normal_optional {β : Type} {write : β → Json} (h : ∀ b, (write b).normal = write b) (o : Option β) :
    (Json.optional write o).normal = .optional write o := by
  cases o with
  | none => rfl
  | some b => exact h b

theorem normalItems_strings (names : List String) : normalItems (names.map .string) = names.map .string := by
  rw [normalItems_eq_map, List.map_map]
  rfl

theorem depth_float (x : Float) : (Json.float x).depth = 0 := by
  rw [Json.float]
  split <;> rfl

theorem depth_optional {β : Type} {write : β → Json} (h : ∀ b, (write b).depth = 0) (o : Option β) :
    (Json.optional write o).depth = 0 := by
  cases o with
  | none => rfl
  | some b => exact h b

theorem numbers_float (hx : x.isFinite = true → ReadsBack (.float x)) : Numbers ReadsBack (.float x) := by
  rw [Json.float]
  split
  · rename_i hfinite
    exact .number (hx hfinite)
  · exact .null

theorem numbers_optional {β : Type} {write : β → Json} {o : Option β}
    (h : ∀ b ∈ o, Numbers ReadsBack (write b)) :
    Numbers ReadsBack (.optional write o) := by
  cases o with
  | none => exact .null
  | some b => exact h b rfl

end Values

/-! ## Queues -/

section Queues

variable {r : QueueRecord Float}

theorem asQueueRecord_normal (h : ∀ x ∈ r.numbers, x.isFinite = true) :
    asQueueRecord (ofQueueRecord r).normal = .ok r := by
  obtain ⟨⟨hcapacity, hmax, hused, habs, habsMax, habsUsed⟩, hlimit, hfactor⟩ :=
    (numbersOf_iff (P := fun x => x.isFinite = true)).1 h
  have hsorted : (ofQueueRecord r).normal = .object [("absCapacity", .float r.absCapacity),
      ("absMaxCapacity", .float r.absMaxCapacity), ("absUsedCapacity", .float r.absUsedCapacity),
      ("capacity", .float r.capacity), ("children", .array (r.children.map .string)),
      ("maxCapacity", .float r.maxCapacity), ("name", .string r.name), ("parent", .optional .string r.parent),
      ("preemptionDisabled", .optional .boolean r.preemptionDisabled), ("state", .optional .string r.state),
      ("usedCapacity", .float r.usedCapacity), ("userLimit", .optional .float r.userLimit),
      ("userLimitFactor", .optional .float r.userLimitFactor)] := by
    simp only [ofQueueRecord, normal, normalMembers, normal_float, normalItems_strings,
      normal_optional (fun s => rfl : ∀ s, (Json.string s).normal = .string s), normal_optional normal_float,
      normal_optional (fun b => rfl : ∀ b, (Json.boolean b).normal = .boolean b)]
    rfl
  have hname : asString (.string r.name) = .ok r.name := rfl
  have hchildren : asList asString (.array (r.children.map .string)) = .ok r.children :=
    asList_map fun _ _ => rfl
  rw [hsorted, asQueueRecord, asRecord]
  simp [setMembers, recordFields, field, Except.map, bind, Except.bind, hname, hchildren, asOptional_string,
    asFlag_boolean, asFloat_float, hcapacity, hmax, hused, habs, habsMax, habsUsed, asOptional_float hlimit,
    asOptional_float hfactor]

theorem numbers_ofQueueRecord (h : ∀ x ∈ r.numbers, x.isFinite = true → ReadsBack (.float x)) :
    Numbers ReadsBack (ofQueueRecord r) := by
  obtain ⟨⟨hcapacity, hmax, hused, habs, habsMax, habsUsed⟩, hlimit, hfactor⟩ := numbersOf_iff.1 h
  refine .object ?_
  simp only [List.forall_mem_cons]
  refine ⟨.string _, numbers_optional fun _ _ => .string _, .array ?_, numbers_float hcapacity,
    numbers_float hmax, numbers_float hused, numbers_float habs, numbers_float habsMax, numbers_float habsUsed,
    numbers_optional fun _ _ => .string _, numbers_optional fun x hx => numbers_float (hlimit x hx),
    numbers_optional fun x hx => numbers_float (hfactor x hx), numbers_optional fun _ _ => .boolean _, by simp⟩
  intro item hitem
  obtain ⟨name, -, rfl⟩ := List.mem_map.1 hitem
  exact .string name

theorem depth_ofQueueRecord (r : QueueRecord Float) : (ofQueueRecord r).depth ≤ 2 := by
  have hstring : ∀ o, (Json.optional .string o).depth = 0 := depth_optional fun _ => rfl
  have hboolean : ∀ o, (Json.optional .boolean o).depth = 0 := depth_optional fun _ => rfl
  have hstrings : depthOfItems (r.children.map .string) = 0 := by
    induction r.children with
    | nil => rfl
    | cons name names ih =>
      rw [List.map_cons, depthOfItems, ih]
      rfl
  simp [ofQueueRecord, depth, depthOfMembers, hstring, hboolean, hstrings, depth_float,
    depth_optional depth_float]

theorem parseQueues_array {text : String} {items : List Json} (h : Json.parse text = some (.array items)) :
    parseQueues text = (asList asQueueRecord (.array items)).mapError .shape := by
  rw [parseQueues, readJson, h]
  rfl

/-- **Every text of accepted queues is accepted as the same queues.** -/
theorem parseQueues_of_isText {records : List (QueueRecord Float)} {text : List Char}
    (hfinite : ∀ r ∈ records, ∀ x ∈ r.numbers, x.isFinite = true)
    (htext : IsText (.array (records.map ofQueueRecord)) text) :
    parseQueues (String.ofList text) = .ok records := by
  have hparse := htext.parse_array fun r _ => Nat.lt_of_le_of_lt (depth_ofQueueRecord r) (by decide)
  have hread : asList asQueueRecord (.array (records.map fun r => (ofQueueRecord r).normal)) = .ok records :=
    asList_map fun r hr => asQueueRecord_normal (hfinite r hr)
  rw [parseQueues_array hparse]
  exact congrArg (Except.mapError Error.shape) hread

end Queues

/-! ## Metrics -/

section Metrics

variable {m : ClusterMetrics Float}

theorem counterNames_nodup :
    ((ClusterMetrics.counters : List (ClusterMetrics.Counter Float)).map (·.name)).Nodup := by
  decide +kernel

theorem metricFields_nodup : (metricFields.map (·.name)).Nodup := by
  rw [metricFields, List.map_map]
  exact counterNames_nodup

theorem mem_metricFields {c : ClusterMetrics.Counter Float} (h : c ∈ ClusterMetrics.counters) :
    field c.name asFloat c.set ∈ metricFields := List.mem_map.2 ⟨c, h, rfl⟩

theorem metricFields_keep {c : ClusterMetrics.Counter Float} {i : Nat}
    (h : ClusterMetrics.counters[i]? = some c) :
    Keeps metricFields c.name fun m => m.values[i]? := by
  intro f hf hne value r r' hset
  obtain ⟨d, hd, rfl⟩ := List.mem_map.1 hf
  obtain ⟨j, hj⟩ := List.mem_iff_getElem?.1 hd
  obtain ⟨x, -, rfl⟩ := field_set.1 hset
  have hij : j ≠ i := by
    rintro rfl
    cases h.symm.trans hj
    exact hne rfl
  dsimp only
  rw [ClusterMetrics.values_set hj, List.getElem?_set_ne hij]

/-- The members of metrics. -/
def metricMembers (m : ClusterMetrics Float) : List (String × Json) :=
  ClusterMetrics.counters.map fun c => (c.name, .float (c.get m))

theorem metricMembers_nodup (m : ClusterMetrics Float) : ((metricMembers m).map Prod.fst).Nodup := by
  rw [metricMembers, List.map_map]
  exact counterNames_nodup

theorem lookup_sortMembers_metricMembers {c : ClusterMetrics.Counter Float}
    (h : c ∈ ClusterMetrics.counters) :
    (sortMembers (metricMembers m)).lookup c.name = some (.float (c.get m)) := by
  have hmem : (c.name, Json.float (c.get m)) ∈ sortMembers (metricMembers m) :=
    mem_sortMembers_of_nodup (metricMembers_nodup m) (List.mem_map.2 ⟨c, h, rfl⟩)
  have hlookup := lookup_of_mem (sortMembers_ascending (metricMembers m)).nodup hmem
  exact hlookup

theorem normal_ofMetrics (m : ClusterMetrics Float) :
    (ofMetrics m).normal = .object (sortMembers (metricMembers m)) := by
  have hfloats : ∀ cs : List (ClusterMetrics.Counter Float),
      normalMembers (cs.map fun c => (c.name, .float (c.get m))) =
        cs.map fun c => (c.name, .float (c.get m)) := by
    intro cs
    induction cs with
    | nil => rfl
    | cons c cs ih => rw [List.map_cons, normalMembers, normal_float, ih]
  rw [ofMetrics, normal, hfloats]
  rfl

section Setting

variable {r : ClusterMetrics Float} (h : ∀ x ∈ m.values, x.isFinite = true)
include h

theorem asFloat_counter {c : ClusterMetrics.Counter Float} (hc : c ∈ ClusterMetrics.counters) :
    asFloat (.float (c.get m)) = .ok (c.get m) := asFloat_float (h _ (List.mem_map.2 ⟨c, hc, rfl⟩))

theorem setMembers_metricMembers
    (hr : setMembers metricFields (sortMembers (metricMembers m)) .zero = .ok r) : r = m := by
  apply ClusterMetrics.values_inj
  apply List.ext_getElem?
  intro i
  cases hc : (ClusterMetrics.counters : List (ClusterMetrics.Counter Float))[i]? with
  | none =>
    rw [ClusterMetrics.values, ClusterMetrics.values, List.getElem?_map, List.getElem?_map, hc]
    rfl
  | some c =>
    have hmem : c ∈ ClusterMetrics.counters := List.mem_of_getElem? hc
    obtain ⟨r0, r1, hset, hget⟩ := setMembers_own (mem_metricFields hmem) metricFields_nodup
      (metricFields_keep hc) (sortMembers_ascending (metricMembers m)).nodup
      (lookup_sortMembers_metricMembers hmem) hr
    obtain ⟨x, hx, rfl⟩ := field_set.1 hset
    cases (asFloat_counter h hmem).symm.trans hx
    have hlt : i < r0.values.length := by
      rw [ClusterMetrics.values, List.length_map]
      exact (List.getElem?_eq_some_iff.1 hc).1
    rw [hget, ClusterMetrics.values_set hc, List.getElem?_set_self hlt, ClusterMetrics.values,
      List.getElem?_map, hc]
    rfl

theorem asMetrics_normal : asMetrics (ofMetrics m).normal = .ok m := by
  have hopt : ∀ f ∈ metricFields, f.required = false := by
    intro f hf
    obtain ⟨c, -, rfl⟩ := List.mem_map.1 hf
    rfl
  obtain ⟨r, hr⟩ : ∃ r, setMembers metricFields (sortMembers (metricMembers m)) .zero = .ok r := by
    refine setMembers_ok (fun member hmember f hf _ r => ?_) _
    obtain ⟨c, hc, rfl⟩ := List.mem_map.1 (mem_sortMembers hmember)
    obtain ⟨d, -, rfl⟩ := List.mem_map.1 hf
    exact ⟨_, field_set.2 ⟨_, asFloat_counter h hc, rfl⟩⟩
  cases setMembers_metricMembers h hr
  rw [normal_ofMetrics]
  exact (asRecord_ok_iff metricFields_nodup hopt).2 ⟨_, rfl, hr⟩

end Setting

theorem numbers_ofMetrics (h : ∀ x ∈ m.values, x.isFinite = true → ReadsBack (.float x)) :
    Numbers ReadsBack (ofMetrics m) := by
  refine .object fun member hmember => ?_
  obtain ⟨c, hc, rfl⟩ := List.mem_map.1 hmember
  exact numbers_float (h _ (List.mem_map.2 ⟨c, hc, rfl⟩))

theorem depth_ofMetrics (m : ClusterMetrics Float) : (ofMetrics m).depth = 1 := by
  simp [ofMetrics, depth, ClusterMetrics.counters, depthOfMembers, depth_float]

theorem parseMetrics_object {text : String} {members : List (String × Json)}
    (h : Json.parse text = some (.object members)) : parseMetrics text =
      (asMetrics ((members.lookup "clusterMetrics").getD (.object members))).mapError .shape := by
  rw [parseMetrics, readJson, h]
  rfl

theorem lookup_clusterMetrics : (sortMembers (metricMembers m)).lookup "clusterMetrics" = none := by
  have hnone :
      "clusterMetrics" ∉ (ClusterMetrics.counters : List (ClusterMetrics.Counter Float)).map (·.name) := by
    decide +kernel
  refine List.lookup_eq_none_iff.2 fun member hmember => ?_
  obtain ⟨c, hc, rfl⟩ := List.mem_map.1 (mem_sortMembers hmember)
  exact bne_iff_ne.2 fun hname => hnone (List.mem_map.2 ⟨c, hc, hname.symm⟩)

/-- **Every text of accepted metrics is accepted as the same metrics,** also as the only member of an
object. -/
theorem parseMetrics_of_isText {text : List Char} (hfinite : ∀ x ∈ m.values, x.isFinite = true)
    (htext : IsText (ofMetrics m) text) :
    parseMetrics (String.ofList text) = .ok m ∧
      parseMetrics (String.ofList ('\x7b' :: (quote "clusterMetrics" ++ ':' :: (text ++ ['\x7d'])))) =
        .ok m := by
  have hdepth := depth_ofMetrics m
  have hread : (asMetrics (ofMetrics m).normal).mapError Error.shape = .ok m := by
    rw [asMetrics_normal hfinite]
    rfl
  constructor
  · have hparse := htext.parse (by rw [hdepth]; decide)
    rw [normal_ofMetrics] at hparse hread
    rw [parseMetrics_object hparse, lookup_clusterMetrics, Option.getD_none, hread]
  · have hparse := (htext.member "clusterMetrics").parse (by
      rw [depth, depthOfMembers, depthOfMembers, hdepth]
      decide)
    have hlookup : (sortMembers (normalMembers [("clusterMetrics", ofMetrics m)])).lookup "clusterMetrics" =
        some (ofMetrics m).normal := rfl
    rw [normal] at hparse
    rw [parseMetrics_object hparse, hlookup, Option.getD_some, hread]

end Metrics

end QueueBoard.Snapshot
