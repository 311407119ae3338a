import QueueBoard.Config.Setting
import QueueBoard.Proofs.Toml.Table
/-!
# Settings key by key

What a table of settings holds once another lies over it (`lookup_overlayMembers`), and what a record read from
it has for each of its keys (`Sets.asRecord`).
-/

namespace QueueBoard.Setting

variable {lower upper members : List (String × Setting)} {name : String} {s above below : Setting}

/-! ## Layers -/

/-- A table names no member twice; nothing is said of the tables inside it. -/
def Distinct : Setting → Prop
  | .table members => DistinctNames members
  | _ => True

theorem put_eq (name : String) (s : Setting) (members : List (String × Setting)) :
    put name s members = putNamed name s members := by
  induction members with
  | nil => rfl
  | cons first rest ih => rw [put, putNamed, ih]

/-- A layer that may be missing, under another that may be missing. -/
def under : (below above : Option Setting) → Option Setting
  | below, none => below
  | none, some above => some above
  | some below, some above => some (overlay below above)

/-- Of two layers the upper one has its way, name by name. -/
theorem lookup_overlayMembers (h : DistinctNames upper) (name : String) :
    (overlayMembers lower upper).lookup name = under (lower.lookup name) (upper.lookup name) := by
  induction upper generalizing lower with
  | nil => rfl
  | cons first rest ih =>
    obtain ⟨n, above⟩ := first
    obtain ⟨hn, hrest⟩ := List.nodup_cons.1 h
    rw [overlayMembers, ih hrest, put_eq, lookup_putNamed, lookup_cons_eq_ite]
    by_cases hname : name = n
    · have hnone : rest.lookup name = none := lookup_eq_none (hname ▸ hn)
      rw [if_pos hname, if_pos hname, hnone, hname]
      cases lower.lookup n <;> rfl
    · rw [if_neg hname, if_neg hname]

theorem distinctNames_overlayMembers (h : DistinctNames lower) (upper : List (String × Setting)) :
    DistinctNames (overlayMembers lower upper) := by
  induction upper generalizing lower with
  | nil => exact h
  | cons first rest ih =>
    rw [overlayMembers, put_eq]
    exact ih (h.put _ _)

/-- A setting that is another one, or a table in its place. -/
def Covers (s given : Setting) : Prop := s = given ∨ ∃ members, s = .table members

theorem covers_overlay (below above : Setting) : (overlay below above).Covers above := by
  cases above with
  | table upper => cases below <;> exact .inr ⟨_, rfl⟩
  | _ => exact .inl rfl

theorem Covers.trans {given : Setting} (h : s.Covers above) (h' : above.Covers given) : s.Covers given := by
  rcases h with rfl | h
  · exact h'
  · exact .inr h

/-- The setting that a table has under a name, or a list at a place. -/
def part? (name : String) (place : Nat) : Setting → Option Setting
  | .table members => members.lookup name
  | .list items => items[place]?
  | _ => none

/-! ## Records -/

section

variable {ρ β γ : Type} {keys : List (Key ρ)} {place : Nat} {holds : Setting → ρ → Prop} {record record' : ρ}

/-- One key makes a record hold a setting of its name. The other keys have other names, and what was held before
them is held after. -/
structure Sets (keys : List (Key ρ)) (place : Nat) (name : String) (holds : Setting → ρ → Prop) : Prop where
  set : ∃ k, keys[place]? = some k ∧ k.name = name ∧ ∀ s r r', k.set s r = .ok r' → holds s r'
  other : ∀ i k, keys[i]? = some k → i ≠ place →
    k.name ≠ name ∧ ∀ s r r', k.set s r = .ok r' → ∀ held, holds held r → holds held r'

theorem within_eq_ok {r : Except Error β} {b : β} (h : within name r = .ok b) : r = .ok b := by
  cases r with
  | ok _ => exact h
  | error _ => cases h

/-- The first of some members is set by the key of its name, or passed over if there is none. -/
theorem setMembers_cons {n : String} {rest : List (String × Setting)}
    (h : setMembers keys ((n, s) :: rest) record = .ok record') :
    ∃ next, setMembers keys rest next = .ok record' ∧
      ((∃ (i : Nat) (k : Key ρ), keys[i]? = some k ∧ k.name = n ∧ k.set s record = .ok next) ∨
        ((∀ k ∈ keys, k.name ≠ n) ∧ next = record)) := by
  rw [setMembers] at h
  split at h
  · rename_i k hk
    obtain ⟨next, hnext, h⟩ := bind_eq_ok h
    obtain ⟨i, hi⟩ := List.getElem?_of_mem (List.mem_of_find?_eq_some hk)
    exact ⟨next, h, .inl ⟨i, k, hi, by simpa using List.find?_some hk, within_eq_ok hnext⟩⟩
  · rename_i hnone
    exact ⟨record, h, .inr ⟨by simpa using List.find?_eq_none.1 hnone, rfl⟩⟩

theorem Sets.setMembers (h : Sets keys place name holds) (hnames : DistinctNames members)
    (hset : setMembers keys members record = .ok record') {held : Setting} (hheld : holds held record) :
    holds ((members.lookup name).getD held) record' := by
  obtain ⟨key, hkey, hkeyName, hholds⟩ := h.set
  induction members generalizing record held with
  | nil =>
    cases hset
    exact hheld
  | cons first rest ih =>
    obtain ⟨n, s⟩ := first
    obtain ⟨hn, hrest⟩ := List.nodup_cons.1 hnames
    obtain ⟨next, hset, hnext⟩ := setMembers_cons hset
    rw [lookup_cons_eq_ite]
    by_cases hname : name = n
    · -- no later member has the name
      have hnextHolds : holds s next := by
        rcases hnext with ⟨i, k, hi, hk, hnext⟩ | ⟨hnone, -⟩
        · have hplace : i = place := by
            by_contra hne
            exact (h.other i k hi hne).1 (hk.trans hname.symm)
          subst hplace
          cases hi.symm.trans hkey
          exact hholds _ _ _ hnext
        · exact absurd (hkeyName.trans hname) (hnone key (List.mem_of_getElem? hkey))
      have hlast := ih hrest hset hnextHolds
      rw [lookup_eq_none (hname ▸ hn)] at hlast
      rwa [if_pos hname]
    · have hnextHolds : holds held next := by
        rcases hnext with ⟨i, k, hi, hk, hnext⟩ | ⟨-, rfl⟩
        · refine (h.other i k hi ?_).2 _ _ _ hnext _ hheld
          rintro rfl
          cases hi.symm.trans hkey
          exact hname (hkeyName.symm.trans hk)
        · exact hheld
      rw [if_neg hname]
      exact ih hrest hset hnextHolds

theorem setItems_keeps {held : Setting}
    (hkeep : ∀ k ∈ keys, ∀ s r r', k.set s r = .ok r' → holds held r → holds held r') {index : Nat}
    {items : List Setting} (hset : setItems index keys items record = .ok record') (hheld : holds held record) :
    holds held record' := by
  induction keys generalizing index items record with
  | nil =>
    cases hset
    exact hheld
  | cons k keys ih =>
    obtain ⟨hk, hkeys⟩ := List.forall_mem_cons.1 hkeep
    cases items with
    | nil =>
      rw [setItems] at hset
      · split at hset <;> cases hset
        exact hheld
      · simp
    | cons item items =>
      rw [setItems] at hset
      obtain ⟨next, hnext, hset⟩ := bind_eq_ok hset
      exact ih hkeys hset (hk _ _ _ (within_eq_ok hnext) hheld)

theorem Sets.setItems (h : Sets keys place name holds) {index : Nat} {items : List Setting}
    (hset : setItems index keys items record = .ok record') {held : Setting} (hheld : holds held record) :
    holds (items[place]?.getD held) record' := by
  induction keys generalizing index place items record with
  | nil =>
    obtain ⟨key, hkey, -⟩ := h.set
    cases hkey
  | cons k keys ih =>
    cases items with
    | nil =>
      rw [Setting.setItems] at hset
      · split at hset <;> cases hset
        exact hheld
      · simp
    | cons item items =>
      rw [Setting.setItems] at hset
      obtain ⟨next, hnext, hset⟩ := bind_eq_ok hset
      cases place with
      | zero =>
        obtain ⟨key, hkey, -, hholds⟩ := h.set
        cases hkey
        refine setItems_keeps (fun k' hk' s r r' hr' => ?_) hset (hholds _ _ _ (within_eq_ok hnext))
        obtain ⟨i, hi⟩ := List.getElem?_of_mem hk'
        exact (h.other (i + 1) k' hi (by omega)).2 s r r' hr' item
      | succ place =>
        have htail : Sets keys place name holds := ⟨h.set, fun i k' hi hne => h.other (i + 1) k' hi (by omega)⟩
        exact ih htail hset ((h.other 0 k rfl (by omega)).2 _ _ _ (within_eq_ok hnext) _ hheld)

/-- A record holds for each key what the table or the list gives for it, and if it gives nothing what was held. -/
theorem Sets.asRecord (h : Sets keys place name holds) (hs : s.Distinct)
    (hrecord : asRecord keys record s = .ok record') {held : Setting} (hheld : holds held record) :
    holds ((s.part? name place).getD held) record' := by
  cases s with
  | table members =>
    have hperm : (sorted members).Perm members := List.mergeSort_perm _ _
    have hsorted : DistinctNames (sorted members) := (hperm.map Prod.fst).nodup_iff.2 hs
    have htaken := h.setMembers hsorted hrecord hheld
    rwa [hs.lookup_perm hperm] at htaken
  | list items => exact h.setItems hrecord hheld
  | _ => cases hrecord

end

end QueueBoard.Setting
