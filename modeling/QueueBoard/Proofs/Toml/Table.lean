import QueueBoard.Proofs.Basic
import QueueBoard.Toml.Reader
/-!
# Names of a TOML document

A document names nothing twice: neither at its top, nor within a table right below it (`parse_distinct`).
-/

namespace QueueBoard.Toml

variable {members members' : Members} {name : String} {path : List String} {text rest : List Char}

/-- A table names no member twice; nothing is said of the tables inside it. -/
def Distinct : Toml → Prop
  | .table members => DistinctNames members
  | _ => True

/-- The same of a table that is being built. -/
def Entry.Distinct : Entry → Prop
  | .value v => v.Distinct
  | .table _ members => DistinctNames members
  | .tables _ _ => True

namespace Members

/-- Distinct names at two levels. -/
structure Distinct (members : Members) : Prop where
  names : DistinctNames members
  entries : ∀ m ∈ members, m.2.Distinct

theorem distinct_nil : Distinct [] := ⟨List.nodup_nil, by simp⟩

/-! ## Putting -/

theorem put_eq (members : Members) (name : String) (entry : Entry) :
    members.put name entry = putNamed name entry members := by
  induction members with
  | nil => rfl
  | cons first rest ih => rw [put, putNamed, ih]

theorem Distinct.put (h : members.Distinct) (name : String) {entry : Entry} (hentry : entry.Distinct) :
    (members.put name entry).Distinct where
  names := by
    rw [put_eq]
    exact h.names.put name entry
  entries m hm := by
    rw [put_eq] at hm
    rcases mem_putNamed hm with rfl | hm
    · exact hentry
    · exact h.entries m hm

theorem Distinct.of_lookup (h : members.Distinct) {entry : Entry} (hentry : members.lookup name = some entry) :
    entry.Distinct :=
  h.entries _ (mem_of_lookup hentry)

/-! ## Changing a table -/

variable {made : Origin} {change : Origin → Members → Option Members}

/-- A change puts one entry, which has distinct names if the entries before it had. -/
def Puts (change : Origin → Members → Option Members) : Prop :=
  ∀ origin members members', change origin members = some members' →
    ∃ name entry, members' = members.put name entry ∧ (members.Distinct → entry.Distinct)

theorem Puts.distinctNames (hchange : Puts change) {origin : Origin} (h : DistinctNames members)
    (hmembers : change origin members = some members') : DistinctNames members' := by
  obtain ⟨name, entry, rfl, -⟩ := hchange _ _ _ hmembers
  rw [put_eq]
  exact h.put name entry

theorem Puts.distinct (hchange : Puts change) (origin : Origin) (h : members.Distinct)
    (hmembers : change origin members = some members') : members'.Distinct := by
  obtain ⟨name, entry, rfl, hentry⟩ := hchange _ _ _ hmembers
  exact h.put name (hentry h)

/-- What changes a table at the end of a path puts the first table on the way back in its place. -/
theorem Puts.update (hchange : Puts change) (made : Origin) (path : List String) :
    Puts (Members.update made change path) := by
  induction path with
  | nil => exact hchange
  | cons name path ih =>
    intro origin members members' h
    rw [Members.update] at h
    split at h
    · obtain ⟨inner, hinner, h⟩ := Option.bind_eq_some_iff.1 h
      cases h
      exact ⟨name, .table made inner, rfl, fun _ => ih.distinctNames distinct_nil.names hinner⟩
    · cases h
    · obtain ⟨last', -, h⟩ := Option.bind_eq_some_iff.1 h
      cases h
      exact ⟨name, .tables last' _, rfl, fun _ => trivial⟩
    · rename_i o inner hlookup
      split at h
      · cases h
      · obtain ⟨inner', hinner, h⟩ := Option.bind_eq_some_iff.1 h
        cases h
        exact ⟨name, .table o inner', rfl, fun hmembers =>
          ih.distinctNames (hmembers.of_lookup hlookup) hinner⟩

theorem puts_insert {v : Toml} (hv : v.Distinct) (path : List String) (name : String) :
    Puts fun _ members => members.insert path name v := by
  intro _ members members' h
  refine Puts.update ?_ .dotted path .header members members' h
  intro origin ms ms' hchange
  dsimp only at hchange
  split at hchange
  · cases hchange
  · cases hchange
    exact ⟨name, .value v, rfl, fun _ => hv⟩

theorem puts_openTable (path : List String) (name : String) :
    Puts fun _ members => members.openTable path name := by
  intro _ members members' h
  refine Puts.update ?_ .implied path .header members members' h
  intro origin ms ms' hchange
  dsimp only at hchange
  split at hchange
  · cases hchange
    exact ⟨name, .table .header [], rfl, fun _ => distinct_nil.names⟩
  · rename_i inner hlookup
    cases hchange
    refine ⟨name, .table .header inner, rfl, fun hms => ?_⟩
    have hinner : (Entry.table .implied inner).Distinct := hms.of_lookup hlookup
    exact hinner
  · cases hchange

theorem puts_openItem (path : List String) (name : String) :
    Puts fun _ members => members.openItem path name := by
  intro _ members members' h
  refine Puts.update ?_ .implied path .header members members' h
  intro origin ms ms' hchange
  dsimp only at hchange
  split at hchange
  · cases hchange
    exact ⟨name, .tables [] [], rfl, fun _ => trivial⟩
  · rename_i last earlier _
    cases hchange
    exact ⟨name, .tables [] (last :: earlier), rfl, fun _ => trivial⟩
  · cases hchange

end Members

/-! ## Reading -/

theorem names_finish : ∀ members : List (String × Entry), (finish members).map Prod.fst = members.map Prod.fst
  | [] => rfl
  | (name, entry) :: rest => by rw [finish, List.map_cons, List.map_cons, names_finish rest]

theorem mem_finish {m : String × Toml} : ∀ {members : Members}, m ∈ finish members →
    ∃ entry, (m.1, entry) ∈ members ∧ m.2 = entry.toToml
  | (name, entry) :: rest, h => by
    rw [finish] at h
    rcases List.mem_cons.1 h with rfl | h
    · exact ⟨entry, List.mem_cons_self, rfl⟩
    · obtain ⟨e, he, heq⟩ := mem_finish h
      exact ⟨e, List.mem_cons_of_mem _ he, heq⟩

theorem distinctNames_finish (h : DistinctNames members) : DistinctNames (finish members) := by
  rw [DistinctNames, names_finish]
  exact h

theorem Entry.Distinct.toToml : ∀ {entry : Entry}, entry.Distinct → entry.toToml.Distinct
  | .value v, h => by rwa [Entry.toToml]
  | .table _ members, h => by
    rw [Entry.toToml]
    exact distinctNames_finish h
  | .tables _ _, _ => by
    rw [Entry.toToml]
    trivial

/-- Everything that is read has distinct names. -/
def ReadsDistinct (read : List Char → Option (Toml × List Char)) : Prop :=
  ∀ text v rest, read text = some (v, rest) → v.Distinct

theorem readMembers_distinct {read : List Char → Option (Toml × List Char)} (hdistinct : ReadsDistinct read)
    {fuel : Nat} (h : members.Distinct) (hread : readMembers read fuel members text = some (members', rest)) :
    members'.Distinct := by
  induction fuel generalizing members text with
  | zero => cases hread
  | succ fuel ih =>
    rw [readMembers] at hread
    obtain ⟨⟨path, text'⟩, -, hread⟩ := Option.bind_eq_some_iff.1 hread
    dsimp only at hread
    split at hread
    · obtain ⟨⟨v, text''⟩, hv, hread⟩ := Option.bind_eq_some_iff.1 hread
      obtain ⟨inserted, hinsert, hread⟩ := Option.bind_eq_some_iff.1 hread
      have hinserted := (Members.puts_insert (hdistinct _ _ _ hv) _ _).distinct .header h hinsert
      split at hread
      · cases hread
        exact hinserted
      · exact ih hinserted hread
      · cases hread
    · cases hread

theorem readWord_distinct : ReadsDistinct readWord := by
  intro text v rest h
  simp only [readWord] at h
  split at h
  · cases h
    trivial
  · obtain ⟨w, hw, h⟩ := Option.map_eq_some_iff.1 h
    cases h
    rw [word?] at hw
    split_ifs at hw
    · cases hw
      trivial
    · cases hw
      trivial
    · cases hw
      trivial
    · split at hw
      · cases hw
        trivial
      · obtain ⟨n, -, rfl⟩ := Option.map_eq_some_iff.1 hw
        trivial

theorem readValue_distinct (limit levels : Nat) : ReadsDistinct (readValue limit levels) := by
  induction levels with
  | zero =>
    intro text v rest h
    unfold readValue at h
    split at h
    · obtain ⟨s, -, h⟩ := Option.map_eq_some_iff.1 h
      cases h
      trivial
    · obtain ⟨s, -, h⟩ := Option.map_eq_some_iff.1 h
      cases h
      trivial
    · cases h
    · cases h
    · exact readWord_distinct _ _ _ h
  | succ levels ih =>
    intro text v rest h
    unfold readValue at h
    split at h
    · obtain ⟨s, -, h⟩ := Option.map_eq_some_iff.1 h
      cases h
      trivial
    · obtain ⟨s, -, h⟩ := Option.map_eq_some_iff.1 h
      cases h
      trivial
    · obtain ⟨items, -, h⟩ := Option.map_eq_some_iff.1 h
      cases h
      trivial
    · dsimp only at h
      split at h
      · cases h
        exact Members.distinct_nil.names
      · obtain ⟨members, hmembers, h⟩ := Option.map_eq_some_iff.1 h
        cases h
        exact distinctNames_finish (readMembers_distinct ih Members.distinct_nil hmembers).names
    · exact readWord_distinct _ _ _ h

/-- The values that a statement gives have distinct names. -/
def Statement.Distinct : Statement → Prop
  | .pair _ _ v => v.Distinct
  | .header _ _ | .itemHeader _ _ => True

theorem readStatement_distinct {limit : Nat} {s : Statement} (h : readStatement limit text = some (s, rest)) :
    s.Distinct := by
  unfold readStatement at h
  split at h
  · obtain ⟨header, -, h⟩ := Option.bind_eq_some_iff.1 h
    obtain ⟨rest', -, h⟩ := Option.bind_eq_some_iff.1 h
    cases h
    trivial
  · obtain ⟨header, -, h⟩ := Option.bind_eq_some_iff.1 h
    obtain ⟨rest', -, h⟩ := Option.bind_eq_some_iff.1 h
    cases h
    trivial
  · obtain ⟨key, -, h⟩ := Option.bind_eq_some_iff.1 h
    dsimp only at h
    split at h
    · obtain ⟨⟨v, text'⟩, hv, h⟩ := Option.bind_eq_some_iff.1 h
      obtain ⟨rest', -, h⟩ := Option.bind_eq_some_iff.1 h
      cases h
      exact readValue_distinct _ _ _ _ _ hv
    · cases h

theorem readStatements_distinct {limit fuel : Nat} {statements : List Statement}
    (h : readStatements limit fuel text = some statements) : ∀ s ∈ statements, s.Distinct := by
  induction fuel generalizing text statements with
  | zero => cases h
  | succ fuel ih =>
    rw [readStatements] at h
    obtain ⟨text', -, h⟩ := Option.bind_eq_some_iff.1 h
    split at h
    · cases h
      simp
    · obtain ⟨⟨s, text''⟩, hs, h⟩ := Option.bind_eq_some_iff.1 h
      obtain ⟨others, hothers, h⟩ := Option.bind_eq_some_iff.1 h
      cases h
      exact List.forall_mem_cons.2 ⟨readStatement_distinct hs, ih hothers⟩

theorem build_distinct {statements : List Statement} (hstatements : ∀ s ∈ statements, s.Distinct)
    {current : List String} (h : members.Distinct) (hbuild : build current members statements = some members') :
    members'.Distinct := by
  induction statements generalizing current members with
  | nil =>
    cases hbuild
    exact h
  | cons s statements ih =>
    obtain ⟨hs, hrest⟩ := List.forall_mem_cons.1 hstatements
    cases s with
    | pair path name v =>
      obtain ⟨inserted, hinsert, hbuild⟩ := Option.bind_eq_some_iff.1 hbuild
      exact ih hrest (((Members.puts_insert hs path name).update .implied current).distinct .header h hinsert) hbuild
    | header path name =>
      obtain ⟨opened, hopen, hbuild⟩ := Option.bind_eq_some_iff.1 hbuild
      exact ih hrest ((Members.puts_openTable path name).distinct .header h hopen) hbuild
    | itemHeader path name =>
      obtain ⟨opened, hopen, hbuild⟩ := Option.bind_eq_some_iff.1 hbuild
      exact ih hrest ((Members.puts_openItem path name).distinct .header h hopen) hbuild

/-- A document names nothing twice at its top or within a table right below it. -/
theorem parse_distinct {text : String} {members : List (String × Toml)} (h : parse text = some members) :
    DistinctNames members ∧ ∀ m ∈ members, m.2.Distinct := by
  rw [parse] at h
  obtain ⟨statements, hstatements, h⟩ := Option.bind_eq_some_iff.1 h
  obtain ⟨built, hbuilt, h⟩ := Option.bind_eq_some_iff.1 h
  cases h
  have hdistinct := build_distinct (readStatements_distinct hstatements) Members.distinct_nil hbuilt
  refine ⟨distinctNames_finish hdistinct.names, fun m hm => ?_⟩
  obtain ⟨entry, hentry, hm⟩ := mem_finish hm
  rw [hm]
  exact (hdistinct.entries _ hentry).toToml

end QueueBoard.Toml
