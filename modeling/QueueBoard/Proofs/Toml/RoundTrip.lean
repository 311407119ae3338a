import QueueBoard.Proofs.Toml.Number
import QueueBoard.Proofs.Toml.Quoted
import QueueBoard.Proofs.Toml.Table
/-!
# TOML documents read back

A document of tables of plain values is read back if its names are bare and distinct and its floats are read back
(`parse_documentText`). Every line is one statement, whatever follows it, and the statements build the tables they
were written for.
-/

namespace QueueBoard.Toml

variable {v : Toml} {name : String} {text rest : List Char} {limit levels : Nat}

/-! ## Values -/

/-- A value that a line holds, read back if it is a float. -/
def IsPlain : Toml → Prop
  | .string _ | .integer _ | .boolean _ => True
  | .float x => ReadsBack x
  | _ => False

theorem readValue_word (h : ∀ c ∈ text.head?, c ≠ '"' ∧ c ≠ '\'' ∧ c ≠ '[' ∧ c ≠ '\x7b') :
    readValue limit levels text = readWord text := by
  unfold readValue
  split
  · exact absurd rfl (h '"' rfl).1
  · exact absurd rfl (h '\'' rfl).2.1
  · exact absurd rfl (h '[' rfl).2.2.1
  · exact absurd rfl (h '\x7b' rfl).2.2.2
  · rfl

/-- A word is the value of its line. -/
theorem readValue_word_line {word : List Char} (h : readWord word = some (v, [])) (hv : ∀ text, v ≠ .datetime text)
    (rest : List Char) : readValue limit levels (word ++ '\n' :: rest) = some (v, '\n' :: rest) := by
  rw [readValue_word, readWord_append h hv]
  · intro c hc
    cases hc
    decide
  · obtain ⟨hall, -⟩ := word_of_readWord h hv
    cases word with
    | nil =>
      intro c hc
      cases hc
      decide
    | cons d word =>
      have hd := hall d List.mem_cons_self
      intro c hc
      cases hc
      refine ⟨?_, ?_, ?_, ?_⟩ <;> rintro rfl <;> cases hd

theorem readValue_quote (s : String) (rest : List Char) :
    readValue limit levels (quote s ++ '\n' :: rest) = some (.string s, '\n' :: rest) := by
  have hends : ∀ c ∈ ('\n' :: rest).head?, c ≠ '"' ∧ c ≠ '\'' := by simp
  have hread := readString_quote s hends
  obtain ⟨more, hquote | hquote⟩ : ∃ more, quote s = '"' :: more ∨ quote s = '\'' :: more := by
    rw [quote]
    cases Quoting.of s.toList
    · exact ⟨_, .inl rfl⟩
    · exact ⟨_, .inr rfl⟩
    · exact ⟨_, .inl rfl⟩
    · exact ⟨_, .inr rfl⟩
  · rw [hquote, List.cons_append] at hread ⊢
    rw [readValue, hread]
    rfl
  · rw [hquote, List.cons_append] at hread ⊢
    rw [readValue, hread]
    rfl

/-- What is written for a plain value is the value of its line. -/
theorem readValue_plainText {value : String} (hv : v.IsPlain) (h : plainText v = some value) (rest : List Char) :
    readValue limit levels (value.toList ++ '\n' :: rest) = some (v, '\n' :: rest) := by
  cases v with
  | string s =>
    cases h
    rw [String.toList_ofList]
    exact readValue_quote s rest
  | integer n =>
    rw [plainText] at h
    split at h
    · rename_i hfits
      cases h
      exact readValue_word_line (readWord_integer hfits) (by simp) rest
    · cases h
  | float x =>
    obtain ⟨text, htext, hread⟩ := hv
    cases htext.symm.trans h
    exact readValue_word_line hread (by simp) rest
  | boolean b =>
    cases h
    exact readValue_word_line (readWord_boolean b) (by simp) rest
  | _ => cases hv

/-! ## Lines -/

/-- A name that stands without quotes. -/
def IsBare (name : String) : Prop := name.toList ≠ [] ∧ ∀ c ∈ name.toList, isKeyChar c = true

instance : DecidablePred IsBare := fun name =>
  decidable_of_iff ((!name.toList.isEmpty && name.toList.all isKeyChar) = true) (by simp [IsBare])

theorem IsBare.head (h : IsBare name) (rest : List Char) :
    ∃ c more, name.toList ++ rest = c :: more ∧ isKeyChar c = true := by
  obtain ⟨c, more, hname⟩ := List.exists_cons_of_ne_nil h.1
  rw [hname]
  exact ⟨c, more ++ rest, rfl, h.2 c (by rw [hname]; exact List.mem_cons_self)⟩

theorem ne_of_isKeyChar {c d : Char} (hc : isKeyChar c = true) (hd : isKeyChar d = false) : c ≠ d := by
  rintro rfl
  rw [hc] at hd
  cases hd

theorem IsBare.skipBlanks (h : IsBare name) (rest : List Char) :
    skipBlanks (name.toList ++ rest) = name.toList ++ rest := by
  obtain ⟨c, more, heq, hc⟩ := h.head rest
  have hblank : isBlank c = false := by
    simp [isBlank, ne_of_isKeyChar hc (by decide : isKeyChar ' ' = false),
      ne_of_isKeyChar hc (by decide : isKeyChar '\t' = false)]
  rw [heq, Toml.skipBlanks, List.dropWhile_cons_of_neg (by simp [hblank])]

theorem IsBare.readKeyPart (h : IsBare name) (hrest : ∀ c ∈ rest.head?, isKeyChar c = false) :
    readKeyPart (name.toList ++ rest) = some (name, rest) := by
  obtain ⟨c, more, heq, hc⟩ := h.head rest
  obtain ⟨htake, hdrop⟩ := Text.takeWhile_append h.2 hrest
  have hne : name.toList.isEmpty = false := by simpa using h.1
  unfold Toml.readKeyPart
  split
  · rename_i heq'
    rw [heq] at heq'
    cases heq'
    cases hc
  · rename_i heq'
    rw [heq] at heq'
    cases heq'
    cases hc
  · dsimp only
    rw [htake, hdrop, hne, if_neg Bool.false_ne_true, String.ofList_toList]

theorem IsBare.readKey {parts : Nat} (h : IsBare name) (hrest : ∀ c ∈ rest.head?, isKeyChar c = false)
    (hpoint : ∀ c ∈ (Toml.skipBlanks rest).head?, c ≠ '.') :
    readKey (parts + 1) (name.toList ++ rest) = some ([name], Toml.skipBlanks rest) := by
  rw [Toml.readKey, h.skipBlanks, h.readKeyPart hrest]
  dsimp only [bind, Option.bind]
  split
  · rename_i more heq
    rw [heq] at hpoint
    exact absurd rfl (hpoint '.' rfl)
  · rfl

/-- No value begins with a blank. -/
theorem readValue_blank {c : Char} (hc : isBlank c = true) (rest : List Char) :
    readValue limit levels (c :: rest) = none := by
  have hword : word? [] = none := rfl
  simp only [isBlank, Bool.or_eq_true, beq_iff_eq] at hc
  rcases hc with rfl | rfl
  · rw [readValue_word (by simp)]
    show (word? []).map (fun v => (v, ' ' :: rest)) = none
    rw [hword, Option.map_none]
  · rw [readValue_word (by simp)]
    show (word? []).map (fun v => (v, '\t' :: rest)) = none
    rw [hword, Option.map_none]

theorem skipBlanks_of_readValue (h : readValue limit levels text = some (v, rest)) : skipBlanks text = text := by
  cases text with
  | nil => rfl
  | cons c text =>
    have hc : isBlank c = false := by
      by_contra hc
      rw [readValue_blank (by simpa using hc)] at h
      cases h
    rw [skipBlanks, List.dropWhile_cons_of_neg (by simp [hc])]

/-- A key, a value and a line break are a statement. -/
theorem readStatement_pair {value : List Char} (h : IsBare name)
    (hvalue : readValue limit levelLimit value = some (v, '\n' :: rest)) :
    readStatement limit (name.toList ++ ' ' :: '=' :: ' ' :: value) = some (.pair [] name v, rest) := by
  obtain ⟨c, more, heq, hc⟩ := h.head (' ' :: '=' :: ' ' :: value)
  have hkey : readKey levelLimit (name.toList ++ ' ' :: '=' :: ' ' :: value) = some ([name], '=' :: ' ' :: value) := by
    refine h.readKey (by simp; decide) ?_
    show ∀ c ∈ ('=' :: ' ' :: value).head?, c ≠ '.'
    simp
  have hvalue : readValue limit levelLimit (skipBlanks (' ' :: value)) = some (v, '\n' :: rest) := by
    have hskip : skipBlanks (' ' :: value) = skipBlanks value := rfl
    rwa [hskip, skipBlanks_of_readValue hvalue]
  unfold readStatement
  split
  · rename_i heq'
    rw [heq] at heq'
    cases heq'
    cases hc
  · rename_i heq'
    rw [heq] at heq'
    cases heq'
    cases hc
  · rw [hkey]
    show ((readValue limit levelLimit (skipBlanks (' ' :: value))).bind fun read =>
      (skipLineEnd read.2).bind fun rest => some (Statement.pair [] name read.1, rest)) = _
    rw [hvalue]
    rfl

/-- A name in brackets and a line break are a header. -/
theorem readStatement_header (h : IsBare name) :
    readStatement limit ('[' :: (name.toList ++ ']' :: '\n' :: rest)) = some (.header [] name, rest) := by
  obtain ⟨c, more, heq, hc⟩ := h.head (']' :: '\n' :: rest)
  have hkey : readKey levelLimit (name.toList ++ ']' :: '\n' :: rest) = some ([name], ']' :: '\n' :: rest) := by
    refine h.readKey (by simp; decide) ?_
    show ∀ c ∈ (']' :: '\n' :: rest).head?, c ≠ '.'
    simp
  unfold readStatement
  split
  · rename_i heq'
    rw [heq] at heq'
    cases heq'
    cases hc
  · rename_i heq'
    cases heq'
    rw [readHeader, hkey]
    rfl
  · rename_i hheader
    exact absurd rfl (hheader _)

/-! ## Statements -/

/-- What a text is read as, given enough fuel. -/
def ReadsAs (text : List Char) (statements : List Statement) : Prop :=
  ∀ limit fuel, text.length < fuel → readStatements limit fuel text = some statements

variable {statements : List Statement} {s : Statement}

theorem readsAs_nil : ReadsAs [] [] := by
  intro limit fuel hfuel
  obtain ⟨fuel, rfl⟩ : ∃ k, fuel = k + 1 := ⟨fuel - 1, by omega⟩
  rfl

/-- A line break before a text is skipped. -/
theorem ReadsAs.break (h : ReadsAs text statements) : ReadsAs ('\n' :: text) statements := by
  intro limit fuel hfuel
  have hread := h limit fuel (by simp at hfuel; omega)
  obtain ⟨fuel, rfl⟩ : ∃ k, fuel = k + 1 := ⟨fuel - 1, by omega⟩
  have hskip : skipLoose false ('\n' :: text) = skipLoose false text := rfl
  rw [readStatements] at hread ⊢
  rwa [hskip]

/-- A statement before a text is read first. -/
theorem ReadsAs.cons {c : Char} {line : List Char} (hc : c = '[' ∨ isKeyChar c = true)
    (hstatement : ∀ limit, readStatement limit (c :: line) = some (s, text)) (hlength : text.length ≤ line.length)
    (h : ReadsAs text statements) : ReadsAs (c :: line) (s :: statements) := by
  intro limit fuel hfuel
  obtain ⟨fuel, rfl⟩ : ∃ k, fuel = k + 1 := ⟨fuel - 1, by omega⟩
  have hskip : skipLoose false (c :: line) = some (c :: line) := by
    have hne : ∀ d : Char, d ≠ '[' → isKeyChar d = false → c ≠ d := by
      intro d hd hkey
      rcases hc with rfl | hc
      · exact hd.symm
      · exact ne_of_isKeyChar hc hkey
    have hbreak := hne '\n' (by decide) (by decide)
    have hspace := hne ' ' (by decide) (by decide)
    have htab := hne '\t' (by decide) (by decide)
    have hmark := hne '#' (by decide) (by decide)
    rw [skipLoose]
    · simp [isBlank, hbreak, hspace, htab, hmark]
    · rintro rest rfl
      exact absurd rfl (hne '\x0d' (by decide) (by decide))
  rw [readStatements, hskip]
  dsimp only [bind, Option.bind]
  rw [hstatement]
  dsimp only
  rw [h limit fuel (by simp at hfuel; omega)]
  rfl

/-! ## What is written -/

/-- A table that a document can hold: bare names, distinct ones, and plain values. -/
structure IsWritable (table : String × List (String × Toml)) : Prop where
  bare : IsBare table.1
  distinct : DistinctNames table.2
  members : ∀ m ∈ table.2, IsBare m.1 ∧ m.2.IsPlain

/-- The statements of members. -/
def memberStatements (members : List (String × Toml)) : List Statement := members.map fun m => .pair [] m.1 m.2

/-- The statements of a table. -/
def tableStatements (table : String × List (String × Toml)) : List Statement :=
  .header [] table.1 :: memberStatements table.2

theorem mapM_cons_eq_some {β γ : Type} {f : β → Option γ} {b : β} {bs : List β} {ys : List γ}
    (h : (b :: bs).mapM f = some ys) : ∃ c cs, f b = some c ∧ bs.mapM f = some cs ∧ ys = c :: cs := by
  rw [List.mapM_cons] at h
  obtain ⟨c, hc, h⟩ := Option.bind_eq_some_iff.1 h
  obtain ⟨cs, hcs, h⟩ := Option.bind_eq_some_iff.1 h
  cases h
  exact ⟨c, cs, hc, hcs, rfl⟩

theorem isSome_mapM {β γ : Type} (f : β → Option γ) (bs : List β) :
    (bs.mapM f).isSome = bs.all fun b => (f b).isSome := by
  induction bs with
  | nil => rfl
  | cons b bs ih =>
    rw [List.all_cons, ← ih, List.mapM_cons]
    cases f b with
    | none => rfl
    | some c => cases bs.mapM f <;> rfl

/-- Tables have a document if every value in them has a text. -/
theorem isSome_documentText (tables : List (String × List (String × Toml))) :
    (documentText tables).isSome = tables.all fun table => table.2.all fun member => (plainText member.2).isSome := by
  have hline : ∀ member, (line member).isSome = (plainText member.2).isSome := by
    intro member
    rw [line]
    cases plainText member.2 <;> rfl
  have htable : ∀ table, (tableText table).isSome = table.2.all fun member => (plainText member.2).isSome := by
    intro table
    rw [← funext hline, ← isSome_mapM, tableText]
    cases table.2.mapM line <;> rfl
  rw [← funext htable, ← isSome_mapM, documentText]
  cases tables.mapM tableText <;> rfl

theorem readsAs_line {member : String × Toml} {written : String} (hname : IsBare member.1) (hv : member.2.IsPlain)
    (hline : line member = some written) (h : ReadsAs rest statements) :
    ReadsAs (written.toList ++ rest) (.pair [] member.1 member.2 :: statements) := by
  obtain ⟨value, hvalue, hline⟩ := Option.bind_eq_some_iff.1 hline
  cases hline
  have htext : (member.1 ++ " = " ++ value ++ "\n").toList ++ rest =
      member.1.toList ++ ' ' :: '=' :: ' ' :: (value.toList ++ '\n' :: rest) := by
    simp
  obtain ⟨c, more, heq, hc⟩ := hname.head (' ' :: '=' :: ' ' :: (value.toList ++ '\n' :: rest))
  have hlength := congrArg List.length heq
  rw [htext, heq]
  refine ReadsAs.cons (.inr hc) (fun limit => ?_) ?_ h
  · rw [← heq]
    exact readStatement_pair hname (readValue_plainText hv hvalue rest)
  · simp at hlength
    omega

theorem readsAs_lines {members : List (String × Toml)} {lines : List String}
    (hmembers : ∀ m ∈ members, IsBare m.1 ∧ m.2.IsPlain) (hlines : members.mapM line = some lines)
    (h : ReadsAs rest statements) :
    ReadsAs ((String.join lines).toList ++ rest) (memberStatements members ++ statements) := by
  induction members generalizing lines with
  | nil =>
    cases hlines
    exact h
  | cons m members ih =>
    obtain ⟨⟨hname, hv⟩, hmembers⟩ := List.forall_mem_cons.1 hmembers
    obtain ⟨first, others, hfirst, hothers, rfl⟩ := mapM_cons_eq_some hlines
    have hread := readsAs_line hname hv hfirst (ih hmembers hothers)
    simpa [String.toList_join, memberStatements] using hread

theorem readsAs_table {table : String × List (String × Toml)} {written : String} (htable : IsWritable table)
    (hwritten : tableText table = some written) (h : ReadsAs rest statements) :
    ReadsAs (written.toList ++ rest) (tableStatements table ++ statements) := by
  obtain ⟨lines, hlines, hwritten⟩ := Option.bind_eq_some_iff.1 hwritten
  cases hwritten
  have htext : ("[" ++ table.1 ++ "]\n" ++ String.join lines).toList ++ rest =
      '[' :: (table.1.toList ++ ']' :: '\n' :: ((String.join lines).toList ++ rest)) := by
    simp
  rw [htext]
  refine ReadsAs.cons (.inl rfl) (fun limit => readStatement_header htable.bare) ?_
    (readsAs_lines htable.members hlines h)
  simp
  omega

theorem readsAs_tables {tables : List (String × List (String × Toml))} {texts : List String}
    (htables : ∀ t ∈ tables, IsWritable t) (htexts : tables.mapM tableText = some texts) :
    ReadsAs ("\n".intercalate texts).toList (tables.flatMap tableStatements) := by
  induction tables generalizing texts with
  | nil =>
    cases htexts
    exact readsAs_nil
  | cons t tables ih =>
    obtain ⟨ht, htables⟩ := List.forall_mem_cons.1 htables
    obtain ⟨first, others, hfirst, hothers, rfl⟩ := mapM_cons_eq_some htexts
    have hread := ih htables hothers
    cases others with
    | nil =>
      rw [List.flatMap_cons, String.intercalate_singleton, ← List.append_nil first.toList]
      rw [String.intercalate_nil] at hread
      exact readsAs_table ht hfirst hread
    | cons next others =>
      have htext : ("\n".intercalate (first :: next :: others)).toList =
          first.toList ++ '\n' :: ("\n".intercalate (next :: others)).toList := by
        simp [String.intercalate_cons_cons]
      rw [List.flatMap_cons, htext]
      exact readsAs_table ht hfirst hread.break

/-! ## The tables that are built -/

/-- The entries of members. -/
def entries (members : List (String × Toml)) : Members := members.map fun m => (m.1, .value m.2)

/-- The entry of a table. -/
def tableEntry (table : String × List (String × Toml)) : String × Entry := (table.1, .table .header (entries table.2))

section Building

variable {members inner : Members}

theorem put_new {entry : Entry} (h : name ∉ members.map Prod.fst) :
    members.put name entry = members ++ [(name, entry)] := by
  have hput : putNamed name entry (members ++ []) = members ++ [(name, entry)] := putNamed_append h []
  rwa [List.append_nil, ← Members.put_eq] at hput

theorem put_last {entry entry' : Entry} (h : name ∉ members.map Prod.fst) :
    Members.put (members ++ [(name, entry)]) name entry' = members ++ [(name, entry')] := by
  rw [Members.put_eq, putNamed_append h, putNamed, if_pos (by simp)]

theorem insert_new {inner : Members} (h : name ∉ inner.map Prod.fst) (v : Toml) :
    inner.insert [] name v = some (inner ++ [(name, .value v)]) := by
  rw [Members.insert, Members.update, lookup_eq_none h, put_new h]
  rfl

/-- A pair after a header goes into the table of the header. -/
theorem build_pair (hname : name ∉ members.map Prod.fst) {key : String} (hkey : key ∉ inner.map Prod.fst) (v : Toml)
    (more : List Statement) :
    build [name] (members ++ [(name, .table .header inner)]) (.pair [] key v :: more) =
      build [name] (members ++ [(name, .table .header (inner ++ [(key, .value v)]))]) more := by
  have hlookup : List.lookup name (members ++ [(name, Entry.table .header inner)]) = some (.table .header inner) := by
    rw [List.lookup_append, lookup_eq_none hname]
    simp
  have hupdate : Members.update .implied (fun _ table => table.insert [] key v) [name] .header
      (members ++ [(name, .table .header inner)]) =
      some (members ++ [(name, .table .header (inner ++ [(key, .value v)]))]) := by
    rw [Members.update, hlookup]
    dsimp only
    rw [if_neg (by decide), Members.update, insert_new hkey]
    show some (Members.put _ _ _) = _
    rw [put_last hname]
  rw [build, hupdate]
  rfl

/-- All pairs after a header go into its table. -/
theorem build_members (hname : name ∉ members.map Prod.fst) (pairs : List (String × Toml))
    (hdistinct : (inner.map Prod.fst ++ pairs.map Prod.fst).Nodup) (more : List Statement) :
    build [name] (members ++ [(name, .table .header inner)]) (memberStatements pairs ++ more) =
      build [name] (members ++ [(name, .table .header (inner ++ entries pairs))]) more := by
  induction pairs generalizing inner with
  | nil => simp [memberStatements, entries]
  | cons m pairs ih =>
    have hkey : m.1 ∉ inner.map Prod.fst := by
      intro hmem
      exact (List.nodup_append.1 hdistinct).2.2 m.1 hmem m.1 (by simp) rfl
    have hmore : ((inner ++ [(m.1, Entry.value m.2)]).map Prod.fst ++ pairs.map Prod.fst).Nodup := by
      simpa using hdistinct
    have hbuild := build_pair hname hkey m.2 (memberStatements pairs ++ more)
    rw [ih hmore] at hbuild
    simpa [memberStatements, entries] using hbuild

/-- Headers and pairs build the tables they were written for. -/
theorem build_tables (tables : List (String × List (String × Toml))) (htables : ∀ t ∈ tables, DistinctNames t.2)
    (hdistinct : (members.map Prod.fst ++ tables.map Prod.fst).Nodup) (current : List String) :
    build current members (tables.flatMap tableStatements) = some (members ++ tables.map tableEntry) := by
  induction tables generalizing current members with
  | nil => simp [build]
  | cons t tables ih =>
    obtain ⟨ht, htables⟩ := List.forall_mem_cons.1 htables
    have hname : t.1 ∉ members.map Prod.fst := by
      intro hmem
      exact (List.nodup_append.1 hdistinct).2.2 t.1 hmem t.1 (by simp) rfl
    have hmore : ((members ++ [tableEntry t]).map Prod.fst ++ tables.map Prod.fst).Nodup := by
      simpa [tableEntry] using hdistinct
    have hopen : members.openTable [] t.1 = some (members ++ [(t.1, .table .header [])]) := by
      rw [Members.openTable, Members.update, lookup_eq_none hname]
      dsimp only
      rw [put_new hname]
    have hpairs : (([] : Members).map Prod.fst ++ t.2.map Prod.fst).Nodup := ht
    have hbuild := build_members hname t.2 hpairs (tables.flatMap tableStatements)
    have hrest := ih htables hmore [t.1]
    rw [List.flatMap_cons, tableStatements, List.cons_append, build, hopen]
    show build ([] ++ [t.1]) _ _ = _
    rw [List.nil_append, hbuild, List.nil_append]
    simpa [tableEntry] using hrest

end Building

theorem finish_entries (members : List (String × Toml)) : finish (entries members) = members := by
  induction members with
  | nil => rfl
  | cons m members ih =>
    have hcons : entries (m :: members) = (m.1, .value m.2) :: entries members := rfl
    rw [hcons, finish, ih, Entry.toToml]

theorem finish_tables (tables : List (String × List (String × Toml))) :
    finish (tables.map tableEntry) = tables.map fun t => (t.1, .table t.2) := by
  induction tables with
  | nil => rfl
  | cons t tables ih => rw [List.map_cons, tableEntry, finish, ih, Entry.toToml, finish_entries, List.map_cons]

/-- A document has no mark before it. -/
theorem documentText_head {tables : List (String × List (String × Toml))} {text : String}
    (h : documentText tables = some text) : ∀ c ∈ text.toList.head?, c = '[' := by
  obtain ⟨texts, htexts, htext⟩ := Option.bind_eq_some_iff.1 h
  cases htext
  cases tables with
  | nil =>
    cases htexts
    simp
  | cons t tables =>
    obtain ⟨first, others, hfirst, -, rfl⟩ := mapM_cons_eq_some htexts
    obtain ⟨lines, -, hfirst⟩ := Option.bind_eq_some_iff.1 hfirst
    cases hfirst
    cases others <;> simp [String.intercalate_cons_cons, String.intercalate_singleton]

/-- A document without a mark of the byte order is what its statements build. -/
theorem parse_of_readStatements {text : String} (hmark : ∀ c ∈ text.toList.head?, c ≠ '\uFEFF')
    (hread : readStatements text.toList.length (text.toList.length + 1) text.toList = some statements) :
    parse text = (build [] [] statements).map finish := by
  unfold parse
  split
  · rename_i heq
    rw [heq] at hmark
    exact absurd rfl (hmark _ rfl)
  · dsimp only [bind, Option.bind]
    rw [hread]
    dsimp only
    cases build [] [] statements <;> rfl

/-- **A document is read back** as the tables it was written for. -/
theorem parse_documentText {tables : List (String × List (String × Toml))} {text : String}
    (htables : ∀ t ∈ tables, IsWritable t) (hdistinct : DistinctNames tables) (h : documentText tables = some text) :
    parse text = some (tables.map fun t => (t.1, .table t.2)) := by
  obtain ⟨texts, htexts, htext⟩ := Option.bind_eq_some_iff.1 h
  cases htext
  have hmark : ∀ c ∈ ("\n".intercalate texts).toList.head?, c ≠ '\uFEFF' := by
    intro c hc
    rw [documentText_head h c hc]
    decide
  have hnames : (([] : Members).map Prod.fst ++ tables.map Prod.fst).Nodup := hdistinct
  have hbuild := build_tables tables (fun t ht => (htables t ht).distinct) hnames []
  rw [List.nil_append] at hbuild
  rw [parse_of_readStatements hmark (readsAs_tables htables htexts _ _ (Nat.lt_succ_self _)), hbuild, Option.map_some,
    finish_tables]

end QueueBoard.Toml
