import QueueBoard.Proofs.Json.Number
import QueueBoard.Proofs.Json.Record
import QueueBoard.Snapshot.File
/-!
# Numbers of snapshots

Whatever holds of zero and of every number in a text holds of every number of the queues and metrics that are
read from it. So the numbers of an accepted snapshot are finite (`parseQueues_finite`, `parseMetrics_finite`).
-/

namespace QueueBoard

/-- The numbers of a queue, as far as they are given. -/
def QueueRecord.numbers (r : QueueRecord Float) : List Float :=
  [r.capacity, r.maxCapacity, r.usedCapacity, r.absCapacity, r.absMaxCapacity, r.absUsedCapacity] ++
    (r.userLimit.toList ++ r.userLimitFactor.toList)

namespace Json

variable {P : Float → Prop}

/-- Every number inside is a float as `P` says. -/
abbrev Floats (P : Float → Prop) : Json → Prop := Numbers fun n => P n.toFloat

theorem Numbers.member? {Q : Number → Prop} {value inner : Json} {name : String} (hv : Numbers Q value)
    (h : value.member? name = some inner) : Numbers Q inner := by
  cases hv with
  | object hm => exact hm _ (mem_of_lookup h)
  | _ => cases h

section Readers

variable {ρ β : Type} {K : β → Prop} {I : ρ → Prop} {read : Json → Except ShapeError β}

/-- What is read from a value whose numbers are as `P` says is as `K` says. -/
def Gives (P : Float → Prop) (read : Json → Except ShapeError β) (K : β → Prop) : Prop :=
  ∀ value b, value.Floats P → read value = .ok b → K b

/-- Setting the field from such a value keeps what `I` says of a record. -/
def Carries (P : Float → Prop) (I : ρ → Prop) (f : RecordField ρ) : Prop :=
  ∀ value r r', value.Floats P → I r → f.set value r = .ok r' → I r'

theorem gives_anything : Gives P read fun _ => True := fun _ _ _ _ => trivial

theorem gives_asFloat : Gives P asFloat P := by
  intro value x hv h
  cases hv with
  | number hn =>
    cases h
    exact hn
  | _ => cases h

theorem gives_asOptional (hread : Gives P read K) : Gives P (asOptional read) fun o => ∀ b ∈ o, K b := by
  intro value o hv h
  rw [asOptional.eq_def] at h
  split at h
  · cases h
    exact fun b hb => nomatch hb
  · cases hb : read value with
    | error e =>
      rw [hb] at h
      cases h
    | ok b =>
      rw [hb] at h
      cases h
      intro c hc
      cases hc
      exact hread _ _ hv hb

theorem gives_asList (hread : Gives P read K) : Gives P (asList read) fun bs => ∀ b ∈ bs, K b := by
  have hitems : ∀ {items : List Json} {bs : List β}, (∀ item ∈ items, item.Floats P) →
      items.mapM read = .ok bs → ∀ b ∈ bs, K b := by
    intro items
    induction items with
    | nil =>
      intro bs _ h
      cases h
      exact fun b hb => nomatch hb
    | cons item items ih =>
      intro bs hitems h
      obtain ⟨hfirst, hrest⟩ := List.forall_mem_cons.1 hitems
      rw [List.mapM_cons] at h
      obtain ⟨b, hb, h⟩ := bind_eq_ok h
      obtain ⟨cs, hcs, h⟩ := bind_eq_ok h
      cases h
      exact List.forall_mem_cons.2 ⟨hread _ _ hfirst hb, ih hrest hcs⟩
  intro value bs hv h
  cases hv with
  | array hv => exact hitems hv h
  | _ => cases h

theorem carries_field {name : String} {put : β → ρ → ρ} (hread : Gives P read K)
    (hput : ∀ b r, K b → I r → I (put b r)) : Carries P I (field name read put) := by
  intro value r r' hv hr h
  obtain ⟨b, hb, rfl⟩ := field_set.1 h
  exact hput b r (hread _ _ hv hb) hr

theorem carries_required {f : RecordField ρ} (hf : Carries P I f) :
    Carries P I { f with required := true } := hf

theorem setMembers_carries {fields : List (RecordField ρ)} (hf : ∀ f ∈ fields, Carries P I f)
    {members : List (String × Json)} (hm : ∀ m ∈ members, m.2.Floats P) {r r' : ρ} (hr : I r)
    (h : setMembers fields members r = .ok r') : I r' := by
  induction members generalizing r with
  | nil =>
    cases h
    exact hr
  | cons m rest ih =>
    obtain ⟨hfirst, hrest⟩ := List.forall_mem_cons.1 hm
    obtain ⟨r1, hthen, ⟨f, hfind, hset⟩ | ⟨-, rfl⟩⟩ := setMembers_cons h
    · exact ih hrest (hf f (List.mem_of_find?_eq_some hfind) _ _ _ hfirst hr hset) hthen
    · exact ih hrest hr hthen

theorem setItems_carries {fields : List (RecordField ρ)} (hf : ∀ f ∈ fields, Carries P I f)
    {items rest : List Json} (hitems : ∀ item ∈ items, item.Floats P) {r r' : ρ} (hr : I r)
    (h : setItems fields items r = .ok (r', rest)) : I r' := by
  induction fields generalizing items r with
  | nil =>
    cases h
    exact hr
  | cons f fields ih =>
    obtain ⟨hcarries, hfields⟩ := List.forall_mem_cons.1 hf
    cases items with
    | nil =>
      cases h
      exact hr
    | cons item items =>
      obtain ⟨hfirst, hrest⟩ := List.forall_mem_cons.1 hitems
      obtain ⟨r1, hset, h⟩ := bind_eq_ok h
      exact ih hfields hrest (hcarries _ _ _ hfirst hr hset) h

/-- What every field keeps holds of a record that is read. -/
theorem gives_asRecord {fields : List (RecordField ρ)} (hf : ∀ f ∈ fields, Carries P I f) {name : String}
    {initial : ρ} (hi : I initial) : Gives P (asRecord name fields initial) I := by
  intro value r hv h
  cases hv with
  | object hm =>
    obtain ⟨r1, hset, h⟩ := bind_eq_ok h
    split at h
    · cases h
    · cases h
      exact setMembers_carries hf hm hi hset
  | array hitems =>
    obtain ⟨⟨r1, rest⟩, hset, h⟩ := bind_eq_ok h
    dsimp only at h
    split at h
    · cases h
    · split at h
      · cases h
        exact setItems_carries hf hitems hi hset
      · cases h
  | _ => cases h

end Readers

end Json

namespace Snapshot

open Json

variable {P : Float → Prop}

/-! ## Queues -/

/-- Every number of a queue is as `P` says. -/
def NumbersOf (P : Float → Prop) (r : QueueRecord Float) : Prop := ∀ x ∈ r.numbers, P x

theorem numbersOf_iff {r : QueueRecord Float} : NumbersOf P r ↔
    (P r.capacity ∧ P r.maxCapacity ∧ P r.usedCapacity ∧ P r.absCapacity ∧ P r.absMaxCapacity ∧
      P r.absUsedCapacity) ∧ (∀ x ∈ r.userLimit, P x) ∧ ∀ x ∈ r.userLimitFactor, P x := by
  simp only [NumbersOf, QueueRecord.numbers, List.forall_mem_append, List.forall_mem_cons, Option.mem_toList]
  simp

theorem numbersOf_named (hzero : P 0) (name : String) : NumbersOf P (.named name) := by
  rw [numbersOf_iff]
  simp [QueueRecord.named, hzero]

theorem recordFields_carry : ∀ f ∈ recordFields, Carries P (NumbersOf P) f := by
  simp only [recordFields, List.forall_mem_cons, List.not_mem_nil, false_implies, implies_true, and_true]
  refine ⟨carries_required (carries_field gives_anything ?_), carries_field gives_anything ?_,
    carries_field gives_anything ?_, carries_field gives_asFloat ?_, carries_field gives_asFloat ?_,
    carries_field gives_asFloat ?_, carries_field gives_asFloat ?_, carries_field gives_asFloat ?_,
    carries_field gives_asFloat ?_,
    carries_field gives_anything ?_, carries_field (gives_asOptional gives_asFloat) ?_,
    carries_field (gives_asOptional gives_asFloat) ?_, carries_field gives_anything ?_⟩
  all_goals
    intro b r hb hr
    rw [numbersOf_iff] at hr ⊢
    simp_all

theorem gives_asQueueRecord (hzero : P 0) : Gives P asQueueRecord (NumbersOf P) :=
  gives_asRecord recordFields_carry (numbersOf_named hzero "")

namespace Payload

/-- Every number of a queue and of those inside it is as `P` says. -/
inductive Numbered (P : Float → Prop) : Payload → Prop
  | queue {record : QueueRecord Float} {inner : List Payload} : NumbersOf P record →
      (∀ p ∈ inner, Numbered P p) → Numbered P (.queue record inner)

theorem Numbered.withRecord {p : Payload} {record : QueueRecord Float} (h : Numbered P p)
    (hrecord : NumbersOf P p.record → NumbersOf P record) : Numbered P (p.withRecord record) := by
  cases h with
  | queue hown hinner => exact .queue (hrecord hown) hinner

theorem carries_ownField {β : Type} {K : β → Prop} {name : String} {read : Json → Except ShapeError β}
    {put : β → QueueRecord Float → QueueRecord Float} (hread : Gives P read K)
    (hput : ∀ b r, K b → NumbersOf P r → NumbersOf P (put b r)) :
    Carries P (Numbered P) (ownField name read put) :=
  carries_field hread fun b _ hb hp => hp.withRecord (hput b _ hb)

theorem fields_carry {read : Json → Except ShapeError Payload} (hread : Gives P read (Numbered P)) :
    ∀ f ∈ fields read, Carries P (Numbered P) f := by
  have hlist : ∀ f ∈ [field "queue" (asList read) fun v (_ : List Payload) => v],
      Carries P (fun ps => ∀ p ∈ ps, Numbered P p) f := by
    simp only [List.forall_mem_singleton]
    exact carries_field (gives_asList hread) fun _ _ hps _ => hps
  have hinner : Gives P (asOptional (asRecord "QueueList" [field "queue" (asList read) fun v _ => v] []))
      fun o => ∀ ps ∈ o, ∀ p ∈ ps, Numbered P p := gives_asOptional (gives_asRecord hlist (by simp))
  simp only [fields, List.forall_mem_cons, List.not_mem_nil, false_implies, implies_true, and_true]
  refine ⟨carries_ownField gives_anything ?_, carries_ownField gives_asFloat ?_,
    carries_ownField gives_asFloat ?_, carries_ownField gives_asFloat ?_, carries_ownField gives_asFloat ?_,
    carries_ownField gives_asFloat ?_, carries_ownField gives_asFloat ?_, carries_ownField gives_anything ?_,
    carries_ownField (gives_asOptional gives_asFloat) ?_,
    carries_ownField (gives_asOptional gives_asFloat) ?_,
    carries_ownField gives_anything ?_, carries_field hinner ?_⟩
  case refine_12 =>
    intro o p ho hp
    cases hp with
    | queue hrecord _ =>
      refine .queue hrecord ?_
      cases o with
      | none => simp
      | some ps => exact ho ps rfl
  all_goals
    intro b r hb hr
    rw [numbersOf_iff] at hr ⊢
    simp_all

theorem gives_ofJson (hzero : P 0) : ∀ levels, Gives P (ofJson levels) (Numbered P)
  | 0 => fun _ _ _ h => nomatch h
  | levels + 1 => gives_asRecord (fields_carry (gives_ofJson hzero levels))
      (.queue (numbersOf_named hzero _) (by simp))

mutual
theorem flatten_numbersOf (parent : Option String) : ∀ p : Payload, p.Numbered P →
    ∀ r ∈ p.flatten parent, NumbersOf P r
  | queue record inner, h => by
    obtain ⟨hrecord, hinner⟩ := h
    rw [flatten]
    exact List.forall_mem_cons.2 ⟨hrecord, flattenAll_numbersOf (some record.name) inner hinner⟩

theorem flattenAll_numbersOf (parent : Option String) : ∀ ps : List Payload, (∀ p ∈ ps, p.Numbered P) →
    ∀ r ∈ flattenAll parent ps, NumbersOf P r
  | [], _ => by simp [flattenAll]
  | p :: rest, h => by
    obtain ⟨hfirst, hrest⟩ := List.forall_mem_cons.1 h
    rw [flattenAll]
    exact List.forall_mem_append.2 ⟨flatten_numbersOf parent p hfirst, flattenAll_numbersOf parent rest hrest⟩
end

end Payload

theorem readJson_eq_ok {text : String} {value : Json} (h : readJson text = .ok value) :
    Json.parse text = some value := by
  rw [readJson] at h
  split at h
  · cases h
  · cases h
    assumption

/-- **Every number of an accepted queue snapshot is finite.** -/
theorem parseQueues_finite {text : String} {records : List (QueueRecord Float)}
    (h : parseQueues text = .ok records) : ∀ r ∈ records, ∀ x ∈ r.numbers, x.isFinite = true := by
  have hzero : (0 : Float).isFinite = true := by decide +kernel
  obtain ⟨value, hvalue, h⟩ := bind_eq_ok h
  have hv := parse_finite (readJson_eq_ok hvalue)
  split at h
  · exact gives_asList (gives_asQueueRecord hzero) _ _ hv (mapError_eq_ok h)
  · rw [queuesOfScheduler] at h
    split at h
    · cases h
    · rename_i info hinfo
      obtain ⟨scheduler, hscheduler, hinfo⟩ := Option.bind_eq_some_iff.1 hinfo
      have hinfo := (hv.member? hscheduler).member? hinfo
      split at h
      · cases h
      · rename_i root hroot
        cases h
        exact Payload.flatten_numbersOf none root (Payload.gives_ofJson hzero _ _ _ hinfo hroot)
  · cases h

end Snapshot

/-! ## Metrics -/

namespace ClusterMetrics

variable {α : Type} {m n : ClusterMetrics α}

/-- The values of all counters. -/
def values (m : ClusterMetrics α) : List α := counters.map (·.get m)

/-- Setting a counter changes one value, in the place of the counter. -/
theorem values_set {i : Nat} {c : Counter α} (h : counters[i]? = some c) (v : α) (m : ClusterMetrics α) :
    (c.set v m).values = m.values.set i v := by
  have hall : ∀ p ∈ (counters : List (Counter α)).zipIdx, (p.1.set v m).values = m.values.set p.2 v := by
    simp only [counters, List.zipIdx_cons, List.forall_mem_cons]
    exact ⟨rfl, rfl, rfl, rfl, rfl, rfl, rfl, rfl, rfl, rfl, rfl, rfl, rfl, rfl, rfl, rfl, rfl, rfl, rfl, rfl,
      rfl, rfl, rfl, by simp⟩
  exact hall (c, i) (List.mem_zipIdx_iff_getElem?.2 h)

theorem values_inj (h : m.values = n.values) : m = n := by
  cases m
  cases n
  simpa [values, counters] using h

end ClusterMetrics

namespace Snapshot

open Json

variable {P : Float → Prop}

theorem metricFields_carry : ∀ f ∈ metricFields, Carries P (fun m => ∀ x ∈ m.values, P x) f := by
  intro f hf
  obtain ⟨c, hc, rfl⟩ := List.mem_map.1 hf
  obtain ⟨i, hi⟩ := List.mem_iff_getElem?.1 hc
  refine carries_field gives_asFloat fun b m hb hm => ?_
  intro x hx
  rw [ClusterMetrics.values_set hi] at hx
  rcases List.mem_or_eq_of_mem_set hx with hx | rfl
  · exact hm x hx
  · exact hb

theorem gives_asMetrics (hzero : P 0) : Gives P asMetrics fun m => ∀ x ∈ m.values, P x := by
  refine gives_asRecord metricFields_carry fun x hx => ?_
  have hvalues : (ClusterMetrics.zero : ClusterMetrics Float).values = List.replicate 23 0 := rfl
  rw [hvalues] at hx
  rw [List.eq_of_mem_replicate hx]
  exact hzero

/-- **Every number of accepted metrics is finite.** -/
theorem parseMetrics_finite {text : String} {m : ClusterMetrics Float} (h : parseMetrics text = .ok m) :
    ∀ x ∈ m.values, x.isFinite = true := by
  have hzero : (0 : Float).isFinite = true := by decide +kernel
  obtain ⟨value, hvalue, h⟩ := bind_eq_ok h
  have hv := parse_finite (readJson_eq_ok hvalue)
  split at h
  · rename_i members
    have hmetrics : ((members.lookup "clusterMetrics").getD (.object members)).Floats
        (fun x => x.isFinite = true) := by
      cases hl : members.lookup "clusterMetrics" with
      | none => exact hv
      | some inner => exact hv.member? hl
    exact gives_asMetrics hzero _ _ hmetrics (mapError_eq_ok h)
  · cases h

end Snapshot

end QueueBoard
