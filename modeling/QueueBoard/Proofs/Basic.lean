import Mathlib.Data.List.DropRight
import Mathlib.Data.List.Nodup
/-!
# Members, outcomes, histories

What proofs about all parts share: members that are looked up by their names (`DistinctNames.lookup_eq_some_iff`),
readings that may fail, one after another (`bind_eq_ok`), and machines some of whose inputs set something right while
the others leave it as it is: after any inputs it is what it was after the last one that set it (`since_reset`).
-/

namespace QueueBoard

section Names

variable {β : Type} {members members' : List (String × β)} {name : String} {value : β}

/-- No two members have one name. -/
def DistinctNames (members : List (String × β)) : Prop := (members.map Prod.fst).Nodup

/-- Puts a value in the place of the one of its name, or at the end. -/
def putNamed (name : String) (value : β) : List (String × β) → List (String × β)
  | [] => [(name, value)]
  | (n, v) :: rest => if n == name then (name, value) :: rest else (n, v) :: putNamed name value rest

theorem mem_putNamed {m : String × β} (h : m ∈ putNamed name value members) :
    m = (name, value) ∨ m ∈ members := by
  induction members with
  | nil => simpa [putNamed] using h
  | cons first rest ih =>
    rw [putNamed] at h
    split at h
    · exact (List.mem_cons.1 h).imp_right (List.mem_cons_of_mem _)
    · rcases List.mem_cons.1 h with rfl | h
      · exact .inr List.mem_cons_self
      · exact (ih h).imp_right (List.mem_cons_of_mem _)

theorem putNamed_append (h : name ∉ members.map Prod.fst) (rest : List (String × β)) :
    putNamed name value (members ++ rest) = members ++ putNamed name value rest := by
  induction members with
  | nil => rfl
  | cons first members ih =>
    obtain ⟨hfirst, hmembers⟩ := not_or.1 fun hmem => h (List.mem_cons.2 hmem)
    rw [List.cons_append, putNamed, if_neg (by simpa using Ne.symm hfirst), ih hmembers]
    rfl

theorem lookup_cons_eq_ite (first : String × β) (rest : List (String × β)) (name : String) :
    (first :: rest).lookup name = if name = first.1 then some first.2 else rest.lookup name := by
  obtain ⟨n, v⟩ := first
  rw [List.lookup_cons]
  by_cases h : name = n
  · simp [h]
  · have hne : (name == n) = false := by simpa using h
    simp [h, hne]

theorem lookup_putNamed (other : String) :
    (putNamed name value members).lookup other = if other = name then some value else members.lookup other := by
  induction members with
  | nil => rw [putNamed, lookup_cons_eq_ite]
  | cons first rest ih =>
    rw [putNamed]
    by_cases hfirst : first.1 = name
    · rw [if_pos (by simpa using hfirst), lookup_cons_eq_ite, lookup_cons_eq_ite]
      simp only [hfirst]
      split <;> rfl
    · rw [if_neg (by simpa using hfirst), lookup_cons_eq_ite, lookup_cons_eq_ite, ih]
      by_cases hother : other = first.1
      · rw [if_pos hother, if_pos hother, if_neg (hother ▸ hfirst)]
      · rw [if_neg hother, if_neg hother]

theorem DistinctNames.put (h : DistinctNames members) (name : String) (value : β) :
    DistinctNames (putNamed name value members) := by
  induction members with
  | nil => simp [putNamed, DistinctNames]
  | cons first rest ih =>
    obtain ⟨hfirst, hrest⟩ := List.nodup_cons.1 h
    rw [putNamed]
    split
    · rename_i hname
      rw [beq_iff_eq] at hname
      subst hname
      exact h
    · rename_i hname
      refine List.nodup_cons.2 ⟨fun hmem => ?_, ih hrest⟩
      obtain ⟨m, hm, heq⟩ := List.mem_map.1 hmem
      rcases mem_putNamed hm with rfl | hm
      · exact hname (beq_iff_eq.2 heq.symm)
      · exact hfirst (List.mem_map.2 ⟨m, hm, heq⟩)

theorem mem_of_lookup (h : members.lookup name = some value) : (name, value) ∈ members := by
  obtain ⟨before, after, rfl, -⟩ := List.lookup_eq_some_iff.1 h
  simp

theorem notMem_of_lookup (h : members.lookup name = none) : name ∉ members.map Prod.fst := by
  intro hmem
  obtain ⟨m, hm, rfl⟩ := List.mem_map.1 hmem
  have hne := List.lookup_eq_none_iff.1 h m hm
  simp at hne

theorem lookup_eq_none (h : name ∉ members.map Prod.fst) : members.lookup name = none := by
  refine List.lookup_eq_none_iff.2 fun m hm => ?_
  have hne : name ≠ m.1 := fun heq => h (List.mem_map.2 ⟨m, hm, heq.symm⟩)
  simpa using hne

theorem DistinctNames.lookup_eq_some_iff (h : DistinctNames members) :
    members.lookup name = some value ↔ (name, value) ∈ members := by
  refine ⟨mem_of_lookup, fun hmem => ?_⟩
  obtain ⟨before, after, rfl⟩ := List.append_of_mem hmem
  refine List.lookup_eq_some_iff.2 ⟨before, after, rfl, fun p hp => ?_⟩
  rw [DistinctNames, List.map_append, List.map_cons, List.nodup_append] at h
  simpa using (h.2.2 p.1 (List.mem_map_of_mem hp) name List.mem_cons_self).symm

theorem lookup_of_mem (h : DistinctNames members) {m : String × β} (hm : m ∈ members) :
    members.lookup m.1 = some m.2 :=
  h.lookup_eq_some_iff.2 hm

/-- Where names are distinct the order of the members does not matter. -/
theorem DistinctNames.lookup_perm (h : DistinctNames members) (hperm : members'.Perm members) (name : String) :
    members'.lookup name = members.lookup name := by
  have h' : DistinctNames members' := (hperm.map _).nodup_iff.2 h
  refine Option.ext fun value => ?_
  rw [h.lookup_eq_some_iff, h'.lookup_eq_some_iff, hperm.mem_iff]

end Names

section Outcomes

variable {ε β γ : Type}

theorem bind_eq_ok {x : Except ε β} {next : β → Except ε γ} {c : γ} (h : x >>= next = .ok c) :
    ∃ b, x = .ok b ∧ next b = .ok c := by
  cases x with
  | error e => cases h
  | ok b => exact ⟨b, rfl, h⟩

theorem map_eq_ok {x : Except ε β} {f : β → γ} {c : γ} (h : x.map f = .ok c) : ∃ b, x = .ok b ∧ c = f b := by
  cases x with
  | error e => cases h
  | ok b =>
    cases h
    exact ⟨b, rfl, rfl⟩

theorem mapError_eq_ok {f : ε → γ} {x : Except ε β} {b : β} (h : x.mapError f = .ok b) : x = .ok b := by
  cases x <;> cases h
  rfl

end Outcomes

section Histories

variable {σ ι : Type}

/-- The inputs up to the last one that resets. -/
def upToReset (resets : ι → Bool) (inputs : List ι) : List ι := inputs.rdropWhile fun i => !resets i

theorem upToReset_concat_of_resets {resets : ι → Bool} {input : ι} (h : resets input = true)
    (inputs : List ι) : upToReset resets (inputs ++ [input]) = inputs ++ [input] :=
  List.rdropWhile_concat_neg _ _ _ (by simp [h])

theorem upToReset_concat_of_keeps {resets : ι → Bool} {input : ι} (h : resets input = false)
    (inputs : List ι) : upToReset resets (inputs ++ [input]) = upToReset resets inputs :=
  List.rdropWhile_concat_pos _ _ _ (by simp [h])

/-- What a reset establishes held after the last one, and what all other inputs keep relates the state
then to the present one. -/
theorem since_reset (step : σ → ι → σ) (start : σ) (resets : ι → Bool) (established : σ → Prop)
    (keeps : σ → σ → Prop) (hstart : established start)
    (hreset : ∀ (inputs : List ι) (input : ι), resets input = true →
      established (step (inputs.foldl step start) input))
    (hrefl : ∀ s, keeps s s)
    (hkeeps : ∀ s t input, resets input = false → keeps s t → keeps s (step t input)) (inputs : List ι) :
    established ((upToReset resets inputs).foldl step start) ∧
      keeps ((upToReset resets inputs).foldl step start) (inputs.foldl step start) := by
  induction inputs using List.reverseRecOn with
  | nil => exact ⟨hstart, hrefl start⟩
  | append_singleton inputs input ih =>
    cases h : resets input with
    | true =>
      rw [upToReset_concat_of_resets h, List.foldl_concat]
      exact ⟨hreset inputs input h, hrefl _⟩
    | false =>
      rw [upToReset_concat_of_keeps h, List.foldl_concat]
      exact ⟨ih.1, hkeeps _ _ input h ih.2⟩

end Histories

end QueueBoard
