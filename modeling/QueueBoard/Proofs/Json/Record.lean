import QueueBoard.Json.Shape
import QueueBoard.Proofs.Json.Sorted
import QueueBoard.Proofs.Basic
/-!
# Reading records

A record is read from an object or from an array of its fields; either way from members
(`asRecord_ok_iff`). With every name given once, what a field reads off the record is what its member
says, in whatever order the members come (`setMembers_own`, `setMembers_other`).
-/

namespace QueueBoard.Json

/-- The members of a record with the fields `names`: those of an object, or the items of an array
under the names in order. -/
def given (names : List String) : Json → Option (List (String × Json))
  | .object members => some members
  | .array items => if items.length ≤ names.length then some (names.zip items) else none
  | _ => none

/-! ## Depth and order of members -/

theorem depth_le_depthOfItems {items : List Json} {item : Json} (h : item ∈ items) :
    item.depth ≤ depthOfItems items := by
  induction items with
  | nil => cases h
  | cons first rest ih =>
    rw [depthOfItems]
    rcases List.mem_cons.1 h with rfl | h
    · exact Nat.le_max_left _ _
    · exact (ih h).trans (Nat.le_max_right _ _)

theorem depth_le_depthOfMembers {members : List (String × Json)} {m : String × Json} (h : m ∈ members) :
    m.2.depth ≤ depthOfMembers members := by
  induction members with
  | nil => cases h
  | cons first rest ih =>
    rw [depthOfMembers]
    rcases List.mem_cons.1 h with rfl | h
    · exact Nat.le_max_left _ _
    · exact (ih h).trans (Nat.le_max_right _ _)

theorem depth_lt_of_mem_items {items : List Json} {item : Json} (h : item ∈ items) :
    item.depth < (Json.array items).depth := by
  rw [depth]
  exact Nat.lt_succ_of_le (depth_le_depthOfItems h)

theorem depth_lt_of_mem_given {names : List String} {value : Json} {members : List (String × Json)}
    (h : value.given names = some members) : ∀ m ∈ members, m.2.depth < value.depth := by
  intro m hm
  cases value with
  | object _ =>
    cases h
    rw [depth]
    exact Nat.lt_succ_of_le (depth_le_depthOfMembers hm)
  | array items =>
    rw [given] at h
    split at h
    · cases h
      exact depth_lt_of_mem_items (List.of_mem_zip hm).2
    · cases h
  | _ => cases h

theorem Sorted.of_mem_given {names : List String} {value : Json} {members : List (String × Json)}
    (hs : Sorted value) (h : value.given names = some members) : ∀ m ∈ members, Sorted m.2 := by
  cases hs with
  | object _ hmembers =>
    cases h
    exact hmembers
  | array hitems =>
    rw [given] at h
    split at h
    · cases h
      exact fun m hm => hitems m.2 (List.of_mem_zip hm).2
    · cases h
  | _ => cases h

theorem map_fst_zip_sublist : ∀ (names : List String) (items : List Json),
    ((names.zip items).map Prod.fst).Sublist names
  | [], _ => by simp
  | _ :: _, [] => List.nil_sublist _
  | name :: names, _ :: items => (map_fst_zip_sublist names items).cons_cons name

theorem Sorted.given_nodup {names : List String} {value : Json} {members : List (String × Json)}
    (hs : Sorted value) (hn : names.Nodup) (h : value.given names = some members) :
    (members.map Prod.fst).Nodup := by
  cases hs with
  | object hasc _ =>
    cases h
    exact hasc.nodup
  | @array items _ =>
    rw [given] at h
    split at h
    · cases h
      exact hn.sublist (map_fst_zip_sublist names items)
    · cases h
  | _ => cases h

/-! ## Records -/

variable {ρ β γ : Type}

theorem field_set {name : String} {read : Json → Except ShapeError β} {put : β → ρ → ρ} {value : Json}
    {r r' : ρ} : (field name read put).set value r = .ok r' ↔ ∃ b, read value = .ok b ∧ put b r = r' := by
  simp only [field]
  cases read value with
  | ok b => simp [Except.map]
  | error e => simp [Except.map]

/-- An array of fields is read as the object that gives them. -/
theorem setItems_eq {all : List (RecordField ρ)} {fields : List (RecordField ρ)}
    (hall : ∀ f ∈ fields, all.find? (·.name == f.name) = some f) (items : List Json) (r : ρ) :
    setItems fields items r = (setMembers all ((fields.map (·.name)).zip items) r).map
      fun r' => (r', items.drop fields.length) := by
  induction fields generalizing items r with
  | nil => cases items <;> rfl
  | cons f fields ih =>
    cases items with
    | nil => rfl
    | cons item items =>
      have hrest : ∀ g ∈ fields, all.find? (·.name == g.name) = some g :=
        fun g hg => hall g (List.mem_cons_of_mem _ hg)
      simp only [setItems, List.map_cons, List.zip_cons_cons, setMembers, hall f List.mem_cons_self]
      cases f.set item r with
      | error e => rfl
      | ok r' => exact ih hrest items r'

theorem find?_name {fields : List (RecordField ρ)} (hn : (fields.map (·.name)).Nodup)
    {f : RecordField ρ} (hf : f ∈ fields) : fields.find? (·.name == f.name) = some f := by
  obtain ⟨before, after, rfl⟩ := List.append_of_mem hf
  rw [List.map_append, List.map_cons, List.nodup_append] at hn
  refine List.find?_eq_some_iff_append.2 ⟨by simp, before, after, rfl, fun g hg => ?_⟩
  simpa using hn.2.2 g.name (List.mem_map_of_mem hg) f.name List.mem_cons_self

/-- Reading a record none of whose fields must be given is setting the members that are given. -/
theorem asRecord_ok_iff {fields : List (RecordField ρ)} (hn : (fields.map (·.name)).Nodup)
    (hopt : ∀ f ∈ fields, f.required = false) {value : Json} {name : String} {initial r : ρ} :
    asRecord name fields initial value = .ok r ↔
      ∃ members, value.given (fields.map (·.name)) = some members ∧
        setMembers fields members initial = .ok r := by
  cases value with
  | object members =>
    have hnone : (fields.find? fun f => f.required && (members.lookup f.name).isNone) = none :=
      List.find?_eq_none.2 fun f hf => by simp [hopt f hf]
    simp only [asRecord, hnone, given, Option.some.injEq, exists_eq_left']
    cases setMembers fields members initial with
    | error e => simp [bind, Except.bind]
    | ok r' => simp [bind, Except.bind]
  | array items =>
    have hnone : (fields.drop items.length).findIdx? (·.required) = none :=
      List.findIdx?_eq_none_iff.2 fun f hf => hopt f (List.mem_of_mem_drop hf)
    simp only [asRecord, hnone, setItems_eq (fun f hf => find?_name hn hf), given, List.length_map]
    by_cases hlen : items.length ≤ fields.length
    · have hdrop : items.drop fields.length = [] := List.drop_eq_nil_iff.2 hlen
      simp only [hdrop, if_pos hlen, Option.some.injEq, exists_eq_left']
      cases setMembers fields ((fields.map (·.name)).zip items) initial with
      | error e => simp [bind, Except.bind, Except.map]
      | ok r' => simp [bind, Except.bind, Except.map]
    · have hdrop : (items.drop fields.length).isEmpty = false := by simpa using hlen
      simp only [if_neg hlen]
      cases setMembers fields ((fields.map (·.name)).zip items) initial with
      | error e => simp [bind, Except.bind, Except.map]
      | ok r' => simp [bind, Except.bind, Except.map, hdrop]
  | _ => simp [asRecord, given]

/-- Members that fit their fields are all set. -/
theorem setMembers_ok {fields : List (RecordField ρ)} {members : List (String × Json)}
    (h : ∀ m ∈ members, ∀ f ∈ fields, f.name = m.1 → ∀ r, ∃ r', f.set m.2 r = .ok r') (r : ρ) :
    ∃ r', setMembers fields members r = .ok r' := by
  induction members generalizing r with
  | nil => exact ⟨r, rfl⟩
  | cons m rest ih =>
    obtain ⟨name, value⟩ := m
    have hrest := ih fun m hm => h m (List.mem_cons_of_mem _ hm)
    rw [setMembers]
    split
    · rename_i f hf
      have hname : f.name = name := by simpa using List.find?_some hf
      obtain ⟨r', hr'⟩ := h (name, value) List.mem_cons_self f (List.mem_of_find?_eq_some hf) hname r
      rw [hr']
      exact hrest r'
    · exact hrest r

/-- Fields of other names than `name` do not touch what `get` reads. -/
def Keeps (fields : List (RecordField ρ)) (name : String) (get : ρ → γ) : Prop :=
  ∀ f ∈ fields, f.name ≠ name → ∀ value r r', f.set value r = .ok r' → get r' = get r

/-- What setting one member can do. -/
theorem setMembers_cons {fields : List (RecordField ρ)} {name : String} {value : Json}
    {rest : List (String × Json)} {r r' : ρ} (h : setMembers fields ((name, value) :: rest) r = .ok r') :
    ∃ r1, setMembers fields rest r1 = .ok r' ∧
      ((∃ f, fields.find? (·.name == name) = some f ∧ f.set value r = .ok r1) ∨
        (fields.find? (·.name == name) = none ∧ r1 = r)) := by
  rw [setMembers] at h
  split at h
  · rename_i f hf
    cases hset : f.set value r with
    | error e =>
      rw [hset] at h
      cases h
    | ok r1 =>
      rw [hset] at h
      exact ⟨r1, h, Or.inl ⟨f, hf, hset⟩⟩
  · rename_i hf
    exact ⟨r, h, Or.inr ⟨hf, rfl⟩⟩

/-- Every member of a field's name has set it. -/
theorem set_of_setMembers {fields : List (RecordField ρ)} (hnames : (fields.map (·.name)).Nodup)
    {members : List (String × Json)} {r r' : ρ} (h : setMembers fields members r = .ok r') :
    ∀ m ∈ members, ∀ f ∈ fields, f.name = m.1 → ∃ r0 r1, f.set m.2 r0 = .ok r1 := by
  induction members generalizing r with
  | nil => simp
  | cons first rest ih =>
    obtain ⟨r1, hthen, hset⟩ := setMembers_cons h
    refine List.forall_mem_cons.2 ⟨fun f hf hname => ?_, ih hthen⟩
    rw [← hname, find?_name hnames hf] at hset
    rcases hset with ⟨g, hg, hset⟩ | ⟨hnone, -⟩
    · cases hg
      exact ⟨r, r1, hset⟩
    · cases hnone

/-- What no member names stays. -/
theorem setMembers_other {fields : List (RecordField ρ)} {name : String} {get : ρ → γ}
    (hk : Keeps fields name get) {members : List (String × Json)} (hm : name ∉ members.map Prod.fst)
    {r r' : ρ} (h : setMembers fields members r = .ok r') : get r' = get r := by
  induction members generalizing r with
  | nil =>
    cases h
    rfl
  | cons m rest ih =>
    obtain ⟨other, value⟩ := m
    obtain ⟨hne, hrest⟩ := not_or.1 (mt List.mem_cons.2 hm)
    obtain ⟨r1, hthen, ⟨f, hf, hset⟩ | ⟨-, rfl⟩⟩ := setMembers_cons h
    · have hname : f.name = other := by simpa using List.find?_some hf
      exact (ih hrest hthen).trans
        (hk f (List.mem_of_find?_eq_some hf) (hname ▸ Ne.symm hne) value r r1 hset)
    · exact ih hrest hthen

/-- The member of a field's name decides what it reads. -/
theorem setMembers_own {fields : List (RecordField ρ)} {f : RecordField ρ} (hf : f ∈ fields)
    (hnames : (fields.map (·.name)).Nodup) {get : ρ → γ} (hk : Keeps fields f.name get)
    {members : List (String × Json)} (hn : (members.map Prod.fst).Nodup) {value : Json}
    (hm : members.lookup f.name = some value) {r r' : ρ} (h : setMembers fields members r = .ok r') :
    ∃ r0 r1, f.set value r0 = .ok r1 ∧ get r' = get r1 := by
  induction members generalizing r with
  | nil => cases hm
  | cons m rest ih =>
    obtain ⟨name, v⟩ := m
    obtain ⟨hout, hrest⟩ := List.nodup_cons.1 hn
    obtain ⟨r1, hthen, hset⟩ := setMembers_cons h
    rw [List.lookup_cons] at hm
    split at hm
    · rename_i hname
      rw [beq_iff_eq] at hname
      cases hm
      subst hname
      rw [find?_name hnames hf] at hset
      rcases hset with ⟨g, hg, hset⟩ | ⟨hnone, -⟩
      · cases hg
        exact ⟨r, r1, hset, setMembers_other hk hout hthen⟩
      · cases hnone
    · exact ih hrest hm hthen

end QueueBoard.Json
