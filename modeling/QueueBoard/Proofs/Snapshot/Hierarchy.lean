import QueueBoard.Proofs.Snapshot.Payload
/-!
# From the payload to the picture

The scheduler's payload is a nested value; records are flat and linked by names, the tree by
positions, and the picture by depth alone. With distinct names nothing of the nesting is lost on the
way (`parseScheduler_hierarchy`).
-/

namespace QueueBoard.Snapshot

open Json

/-- The text is a payload whose queues are those of the outline. -/
def IsPayload (text : String) (q : Outline) : Prop :=
  ∃ value info, Json.parse text = some value ∧
    (value.member? "scheduler").bind (Json.member? "schedulerInfo") = some info ∧ Describes info q

namespace Payload

theorem outlineAll_names : ∀ ps : List Payload,
    (outlineAll ps).map Outline.name = ps.map fun p => p.record.name
  | [] => rfl
  | p :: rest => by
    rw [outlineAll, List.map_cons, List.map_cons, outlineAll_names rest, outline_eq]
    rfl

mutual
theorem flatten_spots (parent : Option String) (depth : Nat) : ∀ p : Payload,
    (p.flatten parent).map (fun r => (r.name, r.parent, r.children)) =
      (p.outline.spots parent depth).map fun s => (s.name, s.parent, s.children)
  | queue record inner => by
    rw [flatten, outline, Outline.spots, List.map_cons, List.map_cons, outlineAll_names inner,
      flattenAll_spots (some record.name) (depth + 1) inner]

theorem flattenAll_spots (parent : Option String) (depth : Nat) : ∀ ps : List Payload,
    (flattenAll parent ps).map (fun r => (r.name, r.parent, r.children)) =
      (Outline.spotsAll parent depth (outlineAll ps)).map fun s => (s.name, s.parent, s.children)
  | [] => rfl
  | p :: rest => by
    rw [flattenAll, outlineAll, Outline.spotsAll, List.map_append, List.map_append,
      flatten_spots parent depth p, flattenAll_spots parent depth rest]
end

/-- A payload's records are its queues in pre-order. -/
theorem tells_flatten (p : Payload) : p.outline.Tells (p.flatten none) := flatten_spots none 0 p

end Payload

theorem Sorted.member? {value inner : Json} {name : String} (hs : Sorted value)
    (h : value.member? name = some inner) : Sorted inner := by
  cases hs with
  | object _ hmembers => exact hmembers _ (mem_of_lookup h)
  | _ => cases h

/-- A payload is accepted and told queue by queue. -/
theorem parseScheduler_of_isPayload {text : String} {q : Outline} (h : IsPayload text q) :
    ∃ records, parseScheduler text = .ok records ∧ q.Tells records := by
  obtain ⟨value, info, hvalue, hinfo, hq⟩ := h
  obtain ⟨scheduler, hscheduler, hmember⟩ := Option.bind_eq_some_iff.1 hinfo
  have hs : Sorted info := Sorted.member? (Sorted.member? (parse_sorted hvalue) hscheduler) hmember
  obtain ⟨p, hp, rfl⟩ := (Payload.ofJson_iff_describes hs (Nat.lt_succ_self _)).2 hq
  refine ⟨p.flatten none, ?_, p.tells_flatten⟩
  have hread : readJson text = .ok value := by rw [readJson, hvalue]
  have hrecords : queuesOfScheduler value = .ok (p.flatten none) := by
    rw [queuesOfScheduler, hinfo]
    simp [hp]
  rw [parseScheduler, hread]
  exact hrecords

/-- What is accepted is a payload. -/
theorem isPayload_of_parseScheduler {text : String} {records : List (QueueRecord Float)}
    (h : parseScheduler text = .ok records) : ∃ q, IsPayload text q := by
  rw [parseScheduler, readJson] at h
  cases hvalue : Json.parse text with
  | none =>
    rw [hvalue] at h
    cases h
  | some value =>
    have h : queuesOfScheduler value = .ok records := by
      rw [hvalue] at h
      exact h
    cases hinfo : (value.member? "scheduler").bind (Json.member? "schedulerInfo") with
    | none =>
      rw [queuesOfScheduler, hinfo] at h
      cases h
    | some info =>
      obtain ⟨scheduler, hscheduler, hmember⟩ := Option.bind_eq_some_iff.1 hinfo
      have hs : Sorted info := Sorted.member? (Sorted.member? (parse_sorted hvalue) hscheduler) hmember
      simp only [queuesOfScheduler, hinfo] at h
      cases hp : Payload.ofJson (info.depth + 1) info with
      | error e =>
        rw [hp] at h
        cases h
      | ok p => exact ⟨p.outline, value, info, hvalue, hinfo, Payload.describes_of_ofJson hs hp⟩

/-- Payloads are accepted and nothing else is. -/
theorem parseScheduler_ok_iff {text : String} :
    (∃ records, parseScheduler text = .ok records) ↔ ∃ q, IsPayload text q := by
  constructor
  · rintro ⟨records, h⟩
    exact isPayload_of_parseScheduler h
  · rintro ⟨q, h⟩
    obtain ⟨records, hrecords, -⟩ := parseScheduler_of_isPayload h
    exact ⟨records, hrecords⟩

/-- **The picture has the hierarchy of the payload.** A payload of queues with distinct names around
which the root stands gives one record for each in pre-order; the tree has their nesting for links; and
with nothing folded each has the row of its record, as deep as it is nested. -/
theorem parseScheduler_hierarchy {text : String} {q : Outline} (h : IsPayload text q)
    (hroot : q.name = rootName) (hnd : (q.all.map (·.name)).Nodup) :
    ∃ records, parseScheduler text = .ok records ∧
      records.map (fun r => (r.name, r.parent, r.children)) =
        q.all.map (fun s => (s.name, s.parent, s.children)) ∧
      (QueueTree.build records).size = q.all.length ∧
      (∀ i s, q.all[i]? = some s → ∃ node, (QueueTree.build records).get? i = some node ∧
        node.name = s.name ∧
        node.children.map (QueueTree.build records).nameAt? = s.children.map some ∧
        node.parent.map (QueueTree.build records).nameAt? = s.parent.map some) ∧
      (TreeLayout.compute (QueueTree.build records) {}).rows.map
          (fun row => (row.id, row.sequence, row.name, row.depth)) =
        q.all.mapIdx fun i s => (i, i, s.name, s.depth) := by
  obtain ⟨records, hrecords, htells⟩ := parseScheduler_of_isPayload h
  exact ⟨records, hrecords, htells, htells.size hnd, fun i s => htells.get?_build hnd, htells.rows hnd hroot⟩

/-- A department with one team, the name of the root left out. -/
def departmentText : String :=
  "\x7b\"scheduler\":\x7b\"schedulerInfo\":\x7b\"queues\":\x7b\"queue\":[\x7b\"queueName\":\"a\"," ++
  "\"queues\":\x7b\"queue\":[\x7b\"queueName\":\"b\"\x7d]\x7d\x7d]\x7d\x7d\x7d\x7d"

set_option maxRecDepth 2000 in
theorem isPayload_department : IsPayload departmentText (.queue "root" [.queue "a" [.queue "b" []]]) := by
  let inside (items : List Json) : Json := .object [("queue", .array items)]
  let b : Json := .object [("queueName", .string "b")]
  let a : Json := .object [("queueName", .string "a"), ("queues", inside [b])]
  let info : Json := .object [("queues", inside [a])]
  have hb : Describes b (.queue "b" []) :=
    @Describes.queue b [("queueName", .string "b")] [] [] rfl (by decide) rfl .nil
  have ha : Describes a (.queue "a" [.queue "b" []]) :=
    @Describes.queue a [("queueName", .string "a"), ("queues", inside [b])] [b] _ rfl (by decide) rfl
      (.cons hb .nil)
  have hinfo : Describes info (.queue "root" [.queue "a" [.queue "b" []]]) :=
    @Describes.queue info [("queues", inside [a])] [a] _ rfl (by decide) rfl (.cons ha .nil)
  exact ⟨.object [("scheduler", .object [("schedulerInfo", info)])], info, rfl, rfl, hinfo⟩

/-- The department's rows. -/
theorem parseScheduler_hierarchy_department :
    let q : Outline := .queue "root" [.queue "a" [.queue "b" []]]
    IsPayload departmentText q ∧ q.name = rootName ∧ (q.all.map (·.name)).Nodup ∧
      ∃ records, parseScheduler departmentText = .ok records ∧
        records.map (fun r => (r.name, r.parent, r.children)) =
          [("root", none, ["a"]), ("a", some "root", ["b"]), ("b", some "a", [])] ∧
        (TreeLayout.compute (QueueTree.build records) {}).rows.map
            (fun row => (row.id, row.sequence, row.name, row.depth)) =
          [(0, 0, "root", 0), (1, 1, "a", 1), (2, 2, "b", 2)] := by
  intro q
  have hroot : q.name = rootName := rfl
  have hnd : (q.all.map (·.name)).Nodup := by decide
  obtain ⟨records, hrecords, htells, -, -, hrows⟩ := parseScheduler_hierarchy isPayload_department hroot hnd
  exact ⟨isPayload_department, hroot, hnd, records, hrecords, htells, hrows⟩

end QueueBoard.Snapshot
