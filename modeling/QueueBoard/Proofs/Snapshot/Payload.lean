import QueueBoard.Snapshot.File
import QueueBoard.Proofs.Json.Record
import QueueBoard.Proofs.Queue.Nesting
/-!
# The scheduler's payload

`Describes value q` says what a value of the payload must give to be the queue `q`, in terms of its
members and not of how they are read. These values are read, however deep their queues nest, and no
others (`ofJson_iff_describes`).
-/

namespace QueueBoard

namespace Json

/-- Whether a value is a number. -/
def isNumber : Json → Bool
  | .number _ => true
  | _ => false

/-- Whether a value is a string. -/
def isString : Json → Bool
  | .string _ => true
  | _ => false

/-- Any value will do. -/
def anything : Json → Bool := fun _ => true

/-- Whether a value is null or of some shape. -/
def orNull (shape : Json → Bool) : Json → Bool
  | .null => true
  | value => shape value

end Json

namespace Snapshot

open Json

/-- What the values of a queue look like, in the order of its fields. -/
def shapes : List (String × (Json → Bool)) :=
  [("queueName", isString), ("capacity", isNumber), ("usedCapacity", isNumber), ("maxCapacity", isNumber),
    ("absoluteCapacity", isNumber), ("absoluteMaxCapacity", isNumber), ("absoluteUsedCapacity", isNumber),
    ("state", orNull isString), ("userLimit", orNull isNumber), ("userLimitFactor", orNull isNumber),
    ("preemptionDisabled", anything)]

/-- The fields of a queue. -/
def fieldNames : List String := shapes.map Prod.fst ++ ["queues"]

/-- The name a queue gives, the root's if it gives none. -/
def nameGiven (members : List (String × Json)) : String :=
  match members.lookup "queueName" with
  | some (.string s) => s
  | _ => rootName

/-- The items of the list of queues, if it is one. -/
def listItems : Json → Option (List Json)
  | .null => some []
  | list =>
    match list.given ["queue"] with
    | none => none
    | some members =>
      match members.lookup "queue" with
      | none => some []
      | some (.array items) => some items
      | some _ => none

/-- The queues inside a queue as values, none if it has no list of them. -/
def innerItems (members : List (String × Json)) : Option (List Json) :=
  match members.lookup "queues" with
  | none => some []
  | some list => listItems list

/-- `value` is a queue of the payload, with the name and the inner queues of the outline. -/
inductive Describes : Json → Outline → Prop
  | queue {value : Json} {members : List (String × Json)} {items : List Json} {inner : List Outline} :
      value.given fieldNames = some members →
      (∀ m ∈ members, ∀ shape ∈ shapes, shape.1 = m.1 → shape.2 m.2 = true) →
      innerItems members = some items → List.Forall₂ Describes items inner →
      Describes value (.queue (nameGiven members) inner)

/-! ## Values that fit -/

theorem asFloat_ok_iff {value : Json} : (∃ x, asFloat value = .ok x) ↔ isNumber value = true := by
  cases value <;> simp [asFloat, isNumber]

theorem asString_ok_iff {value : Json} : (∃ s, asString value = .ok s) ↔ isString value = true := by
  cases value <;> simp [asString, isString]

theorem asOptional_ok_iff {β : Type} {read : Json → Except ShapeError β} {shape : Json → Bool}
    (hread : ∀ value, (∃ b, read value = .ok b) ↔ shape value = true) {value : Json} :
    (∃ b, asOptional read value = .ok b) ↔ orNull shape value = true := by
  cases value with
  | null => exact ⟨fun _ => rfl, fun _ => ⟨none, rfl⟩⟩
  | _ =>
    refine Iff.trans ?_ (hread _)
    simp only [asOptional]
    cases read _ <;> simp [Except.map]

theorem asFlag_ok_iff {value : Json} : (∃ b, asFlag value = .ok b) ↔ anything value = true := by
  cases value <;> exact ⟨fun _ => rfl, fun _ => ⟨_, rfl⟩⟩

/-! ## Fields -/

namespace Payload

/-- The field of the name. -/
def nameField : RecordField Payload := ownField "queueName" asString fun v r => { r with name := v }

/-- The field of the inner queues. -/
def listField (read : Json → Except ShapeError Payload) : RecordField (List Payload) :=
  field "queue" (asList read) fun v _ => v

variable (read : Json → Except ShapeError Payload)

/-- The list of inner queues, if there is one. -/
def readList : Json → Except ShapeError (Option (List Payload)) :=
  asOptional (asRecord "QueueList" [listField read] [])

/-- The field of the list. -/
def innerField : RecordField Payload := field "queues" (readList read) fun v p => p.withInner (v.getD [])

/-- The field takes the values of the shape and no others. -/
def Accepts (f : RecordField Payload) (shape : String × (Json → Bool)) : Prop :=
  shape ∈ shapes ∧ shape.1 = f.name ∧
    ∀ value p, (∃ p', f.set value p = .ok p') ↔ shape.2 value = true

theorem ownField_accepts {β : Type} {name : String} {own : Json → Except ShapeError β}
    {put : β → QueueRecord Float → QueueRecord Float} {shape : Json → Bool} (hmem : (name, shape) ∈ shapes)
    (hfit : ∀ value, (∃ b, own value = .ok b) ↔ shape value = true) :
    ∃ shape, Accepts (ownField name own put) shape := by
  refine ⟨(name, shape), hmem, rfl, fun value p => Iff.trans ?_ (hfit value)⟩
  simp [ownField, field_set]

/-- Every field but the last has a shape. -/
theorem fields_cases : ∀ f ∈ fields read, f = innerField read ∨ ∃ shape, Accepts f shape := by
  intro f hf
  simp only [fields, List.mem_cons, List.not_mem_nil, or_false] at hf
  rcases hf with rfl | rfl | rfl | rfl | rfl | rfl | rfl | rfl | rfl | rfl | rfl | rfl
  · exact Or.inr (ownField_accepts (by simp [shapes]) fun _ => asString_ok_iff)
  · exact Or.inr (ownField_accepts (by simp [shapes]) fun _ => asFloat_ok_iff)
  · exact Or.inr (ownField_accepts (by simp [shapes]) fun _ => asFloat_ok_iff)
  · exact Or.inr (ownField_accepts (by simp [shapes]) fun _ => asFloat_ok_iff)
  · exact Or.inr (ownField_accepts (by simp [shapes]) fun _ => asFloat_ok_iff)
  · exact Or.inr (ownField_accepts (by simp [shapes]) fun _ => asFloat_ok_iff)
  · exact Or.inr (ownField_accepts (by simp [shapes]) fun _ => asFloat_ok_iff)
  · exact Or.inr (ownField_accepts (by simp [shapes]) fun _ => asOptional_ok_iff fun _ => asString_ok_iff)
  · exact Or.inr (ownField_accepts (by simp [shapes]) fun _ => asOptional_ok_iff fun _ => asFloat_ok_iff)
  · exact Or.inr (ownField_accepts (by simp [shapes]) fun _ => asOptional_ok_iff fun _ => asFloat_ok_iff)
  · exact Or.inr (ownField_accepts (by simp [shapes]) fun _ => asFlag_ok_iff)
  · exact Or.inl rfl

theorem fieldNames_nodup : fieldNames.Nodup := by decide

theorem fields_nodup : ((fields read).map (·.name)).Nodup := fieldNames_nodup

theorem fields_optional : ∀ f ∈ fields read, f.required = false := by
  simp [fields, ownField, field]

/-- The name is set by no other field. -/
theorem fields_keep_name : Keeps (fields read) "queueName" (·.record.name) := by
  intro f hf hne value p p' h
  simp only [fields, List.mem_cons, List.not_mem_nil, or_false] at hf
  rcases hf with rfl | hf
  · exact absurd rfl hne
  · rcases hf with rfl | rfl | rfl | rfl | rfl | rfl | rfl | rfl | rfl | rfl | rfl
    all_goals
      obtain ⟨b, -, rfl⟩ := field_set.1 h
      rfl

/-- The inner queues are set by no other field. -/
theorem fields_keep_inner : Keeps (fields read) "queues" (·.inner) := by
  intro f hf hne value p p' h
  simp only [fields, List.mem_cons, List.not_mem_nil, or_false] at hf
  rcases hf with rfl | rfl | rfl | rfl | rfl | rfl | rfl | rfl | rfl | rfl | rfl | rfl
  all_goals
    first
      | exact absurd rfl hne
      | obtain ⟨b, -, rfl⟩ := field_set.1 h
        rfl

end Payload

/-! ## Inner queues -/

/-- How a value can list queues. -/
theorem listItems_eq_some_iff {list : Json} {items : List Json} :
    listItems list = some items ↔ list = .null ∧ items = [] ∨
      ∃ members, list.given ["queue"] = some members ∧
        (members.lookup "queue" = none ∧ items = [] ∨ members.lookup "queue" = some (.array items)) := by
  constructor
  · intro h
    unfold listItems at h
    split at h
    · exact Or.inl ⟨rfl, (Option.some.inj h).symm⟩
    · refine Or.inr ?_
      split at h
      · cases h
      · rename_i members hg
        refine ⟨members, hg, ?_⟩
        split at h
        · exact Or.inl ⟨‹_›, (Option.some.inj h).symm⟩
        · exact Or.inr (Option.some.inj h ▸ ‹_›)
        · cases h
  · rintro (⟨rfl, rfl⟩ | ⟨members, hg, hlookup⟩)
    · rfl
    · have hsome : listItems list = match members.lookup "queue" with
          | none => some []
          | some (.array items) => some items
          | some _ => none := by
        cases list with
        | null => cases hg
        | _ => simp only [listItems, hg]
      rcases hlookup with ⟨hl, rfl⟩ | hl
      · rw [hsome, hl]
      · rw [hsome, hl]

/-- The listed values are inside the list. -/
theorem sorted_and_depth_lt_of_listItems {list : Json} {items : List Json} (hs : Sorted list)
    (h : listItems list = some items) : ∀ item ∈ items, Sorted item ∧ item.depth < list.depth := by
  rcases listItems_eq_some_iff.1 h with ⟨-, rfl⟩ | ⟨members, hg, ⟨-, rfl⟩ | hlookup⟩
  · simp
  · simp
  · intro item hitem
    have hm := mem_of_lookup hlookup
    have harray := hs.of_mem_given hg _ hm
    cases harray with
    | array hitems =>
      exact ⟨hitems item hitem, (depth_lt_of_mem_items hitem).trans (depth_lt_of_mem_given hg _ hm)⟩

namespace Payload

variable {read : Json → Except ShapeError Payload}

theorem listField_nodup : ([listField read].map (·.name)).Nodup := by simp

theorem listField_keeps : Keeps [listField read] "queue" id := fun _ hf hne =>
  absurd (congrArg RecordField.name (List.mem_singleton.1 hf)) hne

/-- The list is null or a record with one field. -/
theorem readList_ok_iff {list : Json} {v : Option (List Payload)} :
    readList read list = .ok v ↔ list = .null ∧ v = none ∨
      ∃ members ps, list.given ["queue"] = some members ∧
        setMembers [listField read] members [] = .ok ps ∧ v = some ps := by
  have hrecord : ∀ ps, asRecord "QueueList" [listField read] [] list = .ok ps ↔
      ∃ members, list.given ["queue"] = some members ∧ setMembers [listField read] members [] = .ok ps :=
    fun ps => asRecord_ok_iff listField_nodup (by simp [listField, field])
  by_cases hnull : list = .null
  · subst hnull
    simp [readList, asOptional, given, eq_comm]
  · have hsome : readList read list = (asRecord "QueueList" [listField read] [] list).map some := by
      cases list with
      | null => exact absurd rfl hnull
      | _ => rfl
    constructor
    · intro h
      rw [hsome] at h
      cases hr : asRecord "QueueList" [listField read] [] list with
      | error e =>
        rw [hr] at h
        cases h
      | ok ps =>
        rw [hr] at h
        cases h
        obtain ⟨members, hg, hps⟩ := (hrecord ps).1 hr
        exact Or.inr ⟨members, ps, hg, hps, rfl⟩
    · rintro (⟨h, -⟩ | ⟨members, ps, hg, hps, rfl⟩)
      · exact absurd h hnull
      · rw [hsome, (hrecord ps).2 ⟨members, hg, hps⟩]
        rfl

/-- A list of queues that are read is read. -/
theorem readList_of_listItems {list : Json} {items : List Json} {ps : List Payload} (hs : Sorted list)
    (hl : listItems list = some items) (hps : items.mapM read = .ok ps) :
    ∃ v, readList read list = .ok v := by
  rcases listItems_eq_some_iff.1 hl with ⟨rfl, -⟩ | ⟨members, hg, hlookup⟩
  · exact ⟨none, rfl⟩
  · have hok : ∀ m ∈ members, ∀ f ∈ [listField read], f.name = m.1 → ∀ r, ∃ r', f.set m.2 r = .ok r' := by
      intro m hm f hf hname r
      cases List.mem_singleton.1 hf
      have hm' := lookup_of_mem (hs.given_nodup (by simp) hg) hm
      rw [← hname] at hm'
      rcases hlookup with ⟨hnone, -⟩ | hsome
      · cases hnone.symm.trans hm'
      · rw [← Option.some.inj (hsome.symm.trans hm')]
        exact ⟨ps, field_set.2 ⟨ps, hps, rfl⟩⟩
    obtain ⟨qs, hqs⟩ := setMembers_ok hok []
    exact ⟨some qs, readList_ok_iff.2 (Or.inr ⟨members, qs, hg, hqs, rfl⟩)⟩

/-- What is read as a list of queues is one, and gives the queues of its items. -/
theorem listItems_of_readList {list : Json} {v : Option (List Payload)} (hs : Sorted list)
    (h : readList read list = .ok v) :
    ∃ items, listItems list = some items ∧ items.mapM read = .ok (v.getD []) := by
  rcases readList_ok_iff.1 h with ⟨rfl, rfl⟩ | ⟨members, ps, hg, hps, rfl⟩
  · exact ⟨[], rfl, rfl⟩
  · have hn : (members.map Prod.fst).Nodup := hs.given_nodup (by simp) hg
    cases hl : members.lookup "queue" with
    | none =>
      have hempty : ps = [] := setMembers_other listField_keeps (notMem_of_lookup hl) hps
      exact ⟨[], listItems_eq_some_iff.2 (Or.inr ⟨members, hg, Or.inl ⟨hl, rfl⟩⟩), by rw [hempty]; rfl⟩
    | some value =>
      obtain ⟨r0, r1, hset, hget⟩ :=
        setMembers_own (List.mem_singleton_self (listField read)) listField_nodup listField_keeps hn hl hps
      obtain ⟨b, hb, rfl⟩ := field_set.1 hset
      cases value with
      | array items =>
        exact ⟨items, listItems_eq_some_iff.2 (Or.inr ⟨members, hg, Or.inr hl⟩),
          hb.trans (congrArg Except.ok hget.symm)⟩
      | _ => cases hb

/-! ## Queues -/

mutual
/-- Names and nesting of a queue of the payload. -/
def outline : Payload → Outline
  | queue record inner => .queue record.name (outlineAll inner)

/-- Names and nesting of queues beside each other. -/
def outlineAll : List Payload → List Outline
  | [] => []
  | p :: rest => outline p :: outlineAll rest
end

theorem outline_eq (p : Payload) : p.outline = .queue p.record.name (outlineAll p.inner) := by
  cases p
  rfl

/-- Values that are all read as described are read as a list. -/
theorem mapM_ok {items : List Json} {inner : List Outline} (h : List.Forall₂ Describes items inner)
    (hread : ∀ item ∈ items, ∀ q, Describes item q → ∃ p, read item = .ok p ∧ p.outline = q) :
    ∃ ps, items.mapM read = .ok ps ∧ outlineAll ps = inner := by
  induction h with
  | nil => exact ⟨[], rfl, rfl⟩
  | cons hitem _ ih =>
    obtain ⟨hfirst, hrest⟩ := List.forall_mem_cons.1 hread
    obtain ⟨p, hp, rfl⟩ := hfirst _ hitem
    obtain ⟨ps, hps, rfl⟩ := ih hrest
    exact ⟨p :: ps, by rw [List.mapM_cons, hp, hps]; rfl, rfl⟩

section Members

variable {value : Json} {members : List (String × Json)} {p p' : Payload}
  (hs : Sorted value) (hg : value.given fieldNames = some members)
include hs hg

theorem members_nodup : (members.map Prod.fst).Nodup := hs.given_nodup fieldNames_nodup hg

/-- Members that fit are read. -/
theorem setMembers_fields_ok {items : List Json} {ps : List Payload}
    (hfit : ∀ m ∈ members, ∀ shape ∈ shapes, shape.1 = m.1 → shape.2 m.2 = true)
    (hitems : innerItems members = some items) (hps : items.mapM read = .ok ps) (p : Payload) :
    ∃ p', setMembers (fields read) members p = .ok p' := by
  refine setMembers_ok (fun m hm f hf hname r => ?_) p
  rcases fields_cases read f hf with rfl | ⟨shape, hshape, hshapename, hset⟩
  · have hl := lookup_of_mem (members_nodup hs hg) hm
    rw [← hname] at hl
    rw [innerItems, show members.lookup "queues" = some m.2 from hl] at hitems
    obtain ⟨v, hv⟩ := readList_of_listItems (hs.of_mem_given hg m hm) hitems hps
    exact ⟨_, field_set.2 ⟨v, hv, rfl⟩⟩
  · exact (hset m.2 r).2 (hfit m hm shape hshape (hshapename.trans hname))

theorem setMembers_fields_name
    (hfit : ∀ m ∈ members, ∀ shape ∈ shapes, shape.1 = m.1 → shape.2 m.2 = true)
    (hp : p.record.name = rootName) (h : setMembers (fields read) members p = .ok p') :
    p'.record.name = nameGiven members := by
  rw [nameGiven]
  cases hl : members.lookup "queueName" with
  | none => exact (setMembers_other (fields_keep_name read) (notMem_of_lookup hl) h).trans hp
  | some v =>
    obtain ⟨s, rfl⟩ : ∃ s, v = .string s := by
      have hstring : isString v = true :=
        hfit _ (mem_of_lookup hl) ("queueName", isString) (by simp [shapes]) rfl
      cases v with
      | string s => exact ⟨s, rfl⟩
      | _ => cases hstring
    have hf : nameField ∈ fields read := List.mem_cons_self
    obtain ⟨r0, r1, hset, hget⟩ :=
      setMembers_own hf (fields_nodup read) (fields_keep_name read) (members_nodup hs hg) hl h
    obtain ⟨b, hb, rfl⟩ := field_set.1 hset
    cases hb
    exact hget

/-- The inner queues are those of the items. -/
theorem setMembers_fields_inner (hp : p.inner = []) (h : setMembers (fields read) members p = .ok p') :
    ∃ items, innerItems members = some items ∧ items.mapM read = .ok p'.inner := by
  rw [innerItems]
  cases hl : members.lookup "queues" with
  | none =>
    have hempty : p'.inner = p.inner := setMembers_other (fields_keep_inner read) (notMem_of_lookup hl) h
    exact ⟨[], rfl, by rw [hempty, hp]; rfl⟩
  | some list =>
    have hf : innerField read ∈ fields read := by simp [fields, innerField, readList, listField]
    obtain ⟨r0, r1, hset, hget⟩ :=
      setMembers_own hf (fields_nodup read) (fields_keep_inner read) (members_nodup hs hg) hl h
    obtain ⟨v, hv, rfl⟩ := field_set.1 hset
    obtain ⟨items, hitems, hps⟩ := listItems_of_readList (hs.of_mem_given hg _ (mem_of_lookup hl)) hv
    exact ⟨items, hitems, hps.trans (congrArg Except.ok hget.symm)⟩

end Members

/-- The queues inside a value are sorted and less deep. -/
theorem sorted_and_depth_lt_of_innerItems {value : Json} {members : List (String × Json)}
    {items : List Json} (hs : Sorted value) (hg : value.given fieldNames = some members)
    (hitems : innerItems members = some items) :
    ∀ item ∈ items, Sorted item ∧ item.depth < value.depth := by
  unfold innerItems at hitems
  split at hitems
  · cases hitems
    simp
  · rename_i list hl
    have hm := mem_of_lookup hl
    intro item hitem
    obtain ⟨hsitem, hdepth⟩ :=
      sorted_and_depth_lt_of_listItems (hs.of_mem_given hg _ hm) hitems item hitem
    exact ⟨hsitem, hdepth.trans (depth_lt_of_mem_given hg _ hm)⟩

/-- A value that is described is read, if it nests less deep than `levels`. -/
theorem ofJson_of_describes {levels : Nat} {value : Json} {q : Outline} (hs : Sorted value)
    (hdepth : value.depth < levels) (h : Describes value q) :
    ∃ p, ofJson levels value = .ok p ∧ p.outline = q := by
  induction levels generalizing value q with
  | zero => exact absurd hdepth (Nat.not_lt_zero _)
  | succ levels ih =>
    cases h with
    | @queue _ members items _ hg hfit hitems hinner =>
      have hread : ∀ item ∈ items, ∀ q, Describes item q → ∃ p, ofJson levels item = .ok p ∧ p.outline = q := by
        intro item hitem q hq
        obtain ⟨hsitem, hlt⟩ := sorted_and_depth_lt_of_innerItems hs hg hitems item hitem
        exact ih hsitem (by omega) hq
      obtain ⟨ps, hps, rfl⟩ := mapM_ok hinner hread
      obtain ⟨p, hp⟩ := setMembers_fields_ok hs hg hfit hitems hps (queue (.named rootName) [])
      obtain ⟨items', hitems', hps'⟩ := setMembers_fields_inner hs hg rfl hp
      cases hitems.symm.trans hitems'
      cases hps.symm.trans hps'
      refine ⟨p, (asRecord_ok_iff (fields_nodup _) (fields_optional _)).2 ⟨members, hg, hp⟩, ?_⟩
      rw [outline_eq, setMembers_fields_name hs hg hfit rfl hp]

/-! ## Nothing else is read -/

/-- Every shape is some field's. -/
theorem exists_accepts (read : Json → Except ShapeError Payload) {shape : String × (Json → Bool)}
    (hshape : shape ∈ shapes) :
    ∃ f ∈ fields read, Accepts f shape := by
  have hname : shape.1 ∈ (fields read).map (·.name) :=
    List.mem_append_left ["queues"] (List.mem_map_of_mem hshape)
  obtain ⟨f, hf, hfname⟩ := List.mem_map.1 hname
  refine ⟨f, hf, ?_⟩
  rcases fields_cases read f hf with rfl | ⟨shape', haccepts⟩
  · have hout : "queues" ∉ shapes.map Prod.fst := by decide
    rw [show "queues" = shape.1 from hfname] at hout
    exact absurd (List.mem_map_of_mem hshape) hout
  · have hdistinct : (shapes.map Prod.fst).Nodup := by decide
    have hsame : shape' = shape :=
      List.inj_on_of_nodup_map hdistinct haccepts.1 hshape (haccepts.2.1.trans hfname)
    exact hsame ▸ haccepts

theorem accepts_of_setMembers {members : List (String × Json)} {p p' : Payload}
    (h : setMembers (fields read) members p = .ok p') :
    ∀ m ∈ members, ∀ shape ∈ shapes, shape.1 = m.1 → shape.2 m.2 = true := by
  intro m hm shape hshape hname
  obtain ⟨f, hf, -, hfname, hset⟩ := exists_accepts read hshape
  obtain ⟨r0, hr0⟩ := set_of_setMembers (fields_nodup read) h m hm f hf (hfname.symm.trans hname)
  exact (hset m.2 r0).1 hr0

/-- What is read as a list is described item by item. -/
theorem forall₂_of_mapM {items : List Json} {ps : List Payload} (h : items.mapM read = .ok ps)
    (hread : ∀ item ∈ items, ∀ p, read item = .ok p → Describes item p.outline) :
    List.Forall₂ Describes items (outlineAll ps) := by
  induction items generalizing ps with
  | nil =>
    cases h
    exact .nil
  | cons item rest ih =>
    obtain ⟨hfirst, hrest⟩ := List.forall_mem_cons.1 hread
    rw [List.mapM_cons] at h
    cases hp : read item with
    | error e =>
      rw [hp] at h
      cases h
    | ok p =>
      cases hps : rest.mapM read with
      | error e =>
        rw [hp, hps] at h
        cases h
      | ok qs =>
        rw [hp, hps] at h
        cases h
        exact .cons (hfirst p hp) (ih hps hrest)

/-- A value that is read is described. -/
theorem describes_of_ofJson {levels : Nat} {value : Json} {p : Payload} (hs : Sorted value)
    (h : ofJson levels value = .ok p) : Describes value p.outline := by
  induction levels generalizing value p with
  | zero => cases h
  | succ levels ih =>
    obtain ⟨members, hg, hset⟩ := (asRecord_ok_iff (fields_nodup _) (fields_optional _)).1 h
    obtain ⟨items, hitems, hps⟩ := setMembers_fields_inner hs hg rfl hset
    have hfit := accepts_of_setMembers hset
    rw [outline_eq, setMembers_fields_name hs hg hfit rfl hset]
    refine .queue hg hfit hitems (forall₂_of_mapM hps fun item hitem p hp => ?_)
    exact ih (sorted_and_depth_lt_of_innerItems hs hg hitems item hitem).1 hp

/-- **The payload's queues are read, however deep they nest, and nothing else is.** -/
theorem ofJson_iff_describes {levels : Nat} {value : Json} {q : Outline} (hs : Sorted value)
    (hdepth : value.depth < levels) :
    (∃ p, ofJson levels value = .ok p ∧ p.outline = q) ↔ Describes value q := by
  refine ⟨?_, ofJson_of_describes hs hdepth⟩
  rintro ⟨p, hp, rfl⟩
  exact describes_of_ofJson hs hp

end Payload

end Snapshot

end QueueBoard
