import QueueBoard.Proofs.Decimal.Digits
import QueueBoard.Proofs.Json.Number
import QueueBoard.Proofs.Json.Record
import QueueBoard.Proofs.Json.Spelling
/-!
# Values read back

A value that is written in either form is read back with the members of its objects sorted, provided that its
numbers are read back and it is not nested too deep (`isText_compact`, `isText_pretty`, `IsText.parse`). Blanks
after a text change nothing, and a text stands as well for the value of a member (`IsText.member`).
-/

namespace QueueBoard.Json

open Text (prepend spanDigits)

/-! ## Strings -/

theorem readChars_controlEscape {n : Nat} (h : n < 32) (rest : List Char) :
    readChars (controlEscape n ++ rest) = prepend (Char.ofNat n) (readChars rest) := by
  have hunit : ∀ n < 32, unit? '0' '0' (Nat.digitChar (n / 16)) (Nat.digitChar (n % 16)) = some n := by decide
  have hhalf : isLowSurrogate n = false ∧ isHighSurrogate n = false := by
    simp only [isLowSurrogate, isHighSurrogate, Bool.and_eq_false_iff, decide_eq_false_iff_not]
    omega
  rw [controlEscape, List.cons_append, List.cons_append, List.cons_append, List.cons_append, List.cons_append,
    List.cons_append, List.nil_append, readChars, hunit n h]
  dsimp only
  rw [if_neg (Bool.eq_false_iff.1 hhalf.1), if_neg (Bool.eq_false_iff.1 hhalf.2)]

theorem readChars_plain {c : Char} (hquote : c ≠ '"') (hbackslash : c ≠ '\\') (hcontrol : ¬c.toNat < 32)
    (rest : List Char) : readChars (c :: rest) = prepend c (readChars rest) := by
  rw [readChars.eq_def]
  split
  · rename_i heq
    cases heq
  · rename_i heq
    cases heq
    exact absurd rfl hquote
  · rename_i heq
    cases heq
    exact absurd rfl hbackslash
  · rename_i heq
    cases heq
    exact absurd rfl hbackslash
  · rename_i heq
    cases heq
    exact if_neg (not_or.2 ⟨hbackslash, hcontrol⟩)

theorem readChars_encodeChar (c : Char) (rest : List Char) :
    readChars (encodeChar c ++ rest) = prepend c (readChars rest) := by
  rw [encodeChar]
  split_ifs with hquote hbackslash hn hr ht hb hf hcontrol
  · rw [hquote]
    rfl
  · rw [hbackslash]
    rfl
  · rw [hn]
    rfl
  · rw [hr]
    rfl
  · rw [ht]
    rfl
  · rw [← Char.ofNat_toNat c, hb]
    rfl
  · rw [← Char.ofNat_toNat c, hf]
    rfl
  · rw [readChars_controlEscape hcontrol, Char.ofNat_toNat]
  · exact readChars_plain hquote hbackslash hcontrol rest

/-- A string is read back, whatever it holds. -/
theorem readQuoted_encode (s : String) (rest : List Char) :
    readQuoted (s.toList.flatMap encodeChar ++ '"' :: rest) = some (s, rest) := by
  have hchars : ∀ cs : List Char, readChars (cs.flatMap encodeChar ++ '"' :: rest) = some (cs, rest) := by
    intro cs
    induction cs with
    | nil => rfl
    | cons c cs ih =>
      rw [List.flatMap_cons, List.append_assoc, readChars_encodeChar, ih]
      rfl
  rw [readQuoted, hchars, Option.map_some]
  dsimp only
  rw [String.ofList_toList]

/-! ## What ends a number -/

/-- No number goes on with a blank, a comma or a closing bracket. -/
theorem ends_of_blanks {blanks rest : List Char} (h : skipBlanks blanks = []) (hrest : Ends rest) :
    Ends (blanks ++ rest) := by
  cases blanks with
  | nil => exact hrest
  | cons b blanks =>
    intro c hc
    cases hc
    rw [skipBlanks] at h
    split at h
    · rename_i hb
      simp only [Bool.or_eq_true, beq_iff_eq] at hb
      rcases hb with ((rfl | rfl) | rfl) | rfl <;> decide
    · cases h

theorem ends_cons {c : Char} (h : c = ',' ∨ c = ']' ∨ c = '\x7d') (rest : List Char) : Ends (c :: rest) := by
  intro d hd
  cases hd
  rcases h with rfl | rfl | rfl <;> decide

/-! ## Numbers -/

theorem readValue_skipBlanks {limit levels : Nat} {text other : List Char}
    (h : skipBlanks text = skipBlanks other) :
    readValue limit levels text = readValue limit levels other := by
  rw [readValue.eq_def, readValue.eq_def _ _ other]
  dsimp only
  rw [h]

/-- The text of a number is read as that number. -/
def ReadsBack (n : Number) : Prop := parse n.text = some (.number n)

section Numbers

variable {limit levels : Nat} {text rest : List Char} {n : Number}

theorem readValue_minus {tail : List Char} (h : skipBlanks text = '-' :: tail) :
    readValue limit levels text = (readNumber true tail).map fun (n, rest) => (.number n, rest) := by
  rw [readValue.eq_def]
  dsimp only
  rw [h]
  rfl

theorem readValue_digit {c : Char} {tail : List Char} (h : skipBlanks text = c :: tail)
    (hc : c.isDigit = true) :
    readValue limit levels text = (readNumber false (c :: tail)).map fun (n, rest) => (.number n, rest) := by
  rw [readValue.eq_def]
  dsimp only
  rw [h]
  split <;> rename_i heq
  all_goals
    first
      | rfl
      | cases heq
        cases hc

theorem isDigit_of_readNumber {negative : Bool} (h : readNumber negative text = some (n, rest)) :
    ∃ c tail, text = c :: tail ∧ c.isDigit = true := by
  obtain ⟨whole, afterWhole, -, -, -, hwhole, -⟩ := readNumber_eq_some_iff.1 h
  cases text with
  | nil => cases hwhole
  | cons c tail =>
    refine ⟨c, tail, rfl, ?_⟩
    by_contra hc
    rw [readWhole, spanDigits, List.takeWhile_cons, if_neg hc] at hwhole
    cases hwhole

/-- Where a number is read, the same is read in front of anything that does not go on with it. -/
theorem readValue_number_append (h : readValue limit levels text = some (.number n, rest))
    {limit' levels' : Nat} {more : List Char} (hmore : Ends more) :
    readValue limit' levels' (text ++ more) = some (.number n, rest ++ more) := by
  rw [readValue.eq_def] at h
  dsimp only at h
  split at h
  · cases h
  · cases h
  · cases h
  · obtain ⟨_, -, h⟩ := Option.map_eq_some_iff.1 h
    cases h
  · split at h
    · cases h
    · split at h
      · cases h
      · obtain ⟨_, -, h⟩ := Option.map_eq_some_iff.1 h
        cases h
  · split at h
    · cases h
    · split at h
      · cases h
      · obtain ⟨_, -, h⟩ := Option.map_eq_some_iff.1 h
        cases h
  · rename_i tail hminus
    obtain ⟨⟨n, rest⟩, hn, h⟩ := Option.map_eq_some_iff.1 h
    cases h
    rw [readValue_minus (skipBlanks_append_of_cons hminus more), readNumber_append hn hmore]
    rfl
  · obtain ⟨⟨n, rest⟩, hn, h⟩ := Option.map_eq_some_iff.1 h
    cases h
    obtain ⟨c, tail, htail, hc⟩ := isDigit_of_readNumber hn
    rw [htail] at hn
    rw [readValue_digit (skipBlanks_append_of_cons htail more) hc, ← List.cons_append,
      readNumber_append hn hmore]
    rfl

/-- Digits without a zero before them are the text of a whole number. -/
theorem readWhole_toDigits (n : Nat) : readWhole (Nat.toDigits 10 n) = some (Nat.toDigits 10 n, []) := by
  have hspan : spanDigits (Nat.toDigits 10 n) = (Nat.toDigits 10 n, []) := by
    have hdigits : ∀ c ∈ Nat.toDigits 10 n, c.isDigit = true :=
      fun c hc => Nat.isDigit_of_mem_toDigits (by decide) (by decide) hc
    rw [spanDigits, List.takeWhile_eq_self_iff.2 hdigits, List.dropWhile_eq_nil_iff.2 hdigits]
  rcases Nat.eq_zero_or_pos n with rfl | hn
  · rfl
  · have hhead := Decimal.head_toDigits hn
    have hne := Nat.toDigits_ne_nil (n := n) (b := 10)
    rw [readWhole, hspan]
    generalize Nat.toDigits 10 n = digits at *
    split
    · rename_i hnil
      exact absurd (Prod.mk.inj hnil).1 hne
    · rename_i hzero
      obtain ⟨rfl, -⟩ := Prod.mk.inj hzero
      exact absurd rfl (hhead '0' rfl)
    · rfl

/-- A whole number of 64 bits is read back. -/
theorem readsBack_natural {n : Nat} (h : n < 2 ^ 64) : ReadsBack (.natural n) := by
  have hnumber : readNumber false (Nat.toDigits 10 n) = some (.natural n, []) := by
    refine readNumber_eq_some_iff.2 ⟨_, _, none, [], none, readWhole_toDigits n, rfl, rfl, ?_⟩
    rw [numberOf, Decimal.digitsOnto_toDigits, wholeNumber]
    exact if_pos h
  obtain ⟨c, digits, hdigits⟩ := List.exists_cons_of_ne_nil (Nat.toDigits_ne_nil (n := n) (b := 10))
  have hc : c.isDigit = true := Nat.isDigit_of_mem_toDigits (by decide) (by decide) (hdigits ▸ List.mem_cons_self)
  have hskip : skipBlanks (Nat.toDigits 10 n) = c :: digits := by
    rw [hdigits, skipBlanks, if_neg]
    simp only [Bool.or_eq_true, beq_iff_eq]
    rintro (((rfl | rfl) | rfl) | rfl) <;> cases hc
  have htext : (Number.natural n).text.toList = Nat.toDigits 10 n := by simp [Number.text]
  rw [ReadsBack, Json.parse]
  dsimp only
  rw [htext, readValue_digit hskip hc, ← hdigits, hnumber]
  rfl

end Numbers

/-! ## Items and members -/

mutual
/-- The value as it is read: the members of its objects sorted by name. -/
def normal : Json → Json
  | .array items => .array (normalItems items)
  | .object members => .object (sortMembers (normalMembers members))
  | value => value

/-- The items as they are read. -/
def normalItems : List Json → List Json
  | [] => []
  | item :: rest => item.normal :: normalItems rest

/-- The members as they are read, in their own order. -/
def normalMembers : List (String × Json) → List (String × Json)
  | [] => []
  | (name, value) :: rest => (name, value.normal) :: normalMembers rest
end

section Steps

variable {read : List Char → Option (Json × List Char)} {fuel : Nat} {text after more rest : List Char}

theorem readItems_last {item : Json} (hread : read text = some (item, after))
    (hclose : skipBlanks after = ']' :: rest) :
    readItems read (fuel + 1) text = some ([item], rest) := by
  rw [readItems, hread]
  simp [hclose]

theorem readItems_more {item : Json} {items : List Json} (hread : read text = some (item, after))
    (hcomma : skipBlanks after = ',' :: more) (hthen : readItems read fuel more = some (items, rest)) :
    readItems read (fuel + 1) text = some (item :: items, rest) := by
  rw [readItems, hread]
  simp [hcomma, hthen]

section Member

variable {name : String} {value : Json} {quoted afterName afterColon : List Char}
  (hname : skipBlanks text = '"' :: quoted) (hquoted : readQuoted quoted = some (name, afterName))
  (hcolon : skipBlanks afterName = ':' :: afterColon) (hread : read afterColon = some (value, after))
include hname hquoted hcolon hread

theorem readMembers_last (hclose : skipBlanks after = '\x7d' :: rest) :
    readMembers read (fuel + 1) text = some ([(name, value)], rest) := by
  rw [readMembers, hname]
  simp [hquoted, hcolon, hread, hclose]

theorem readMembers_more {members : List (String × Json)} (hcomma : skipBlanks after = ',' :: more)
    (hthen : readMembers read fuel more = some (members, rest)) :
    readMembers read (fuel + 1) text = some ((name, value) :: members, rest) := by
  rw [readMembers, hname]
  simp [hquoted, hcolon, hread, hcomma, hthen]

end Member

end Steps

section Items

variable {s : Spacing} {level fuel : Nat} {read : List Char → Option (Json × List Char)}
  {close rest : List Char}

/-- What `read` makes of a text in front of anything: a value, and no more of what follows than blanks. -/
def Reads (read : List Char → Option (Json × List Char)) (text : List Char) (value : Json) : Prop :=
  ∀ rest, Ends rest → ∃ after, read (text ++ rest) = some (value, after) ∧ skipBlanks after = skipBlanks rest

theorem readItems_spellItems (hclose : skipBlanks close = []) {items : List Json}
    (hitems : ∀ item ∈ items, Reads read (s.gap level ++ item.spell s level) item.normal)
    (hne : items ≠ []) (hfuel : items.length ≤ fuel) :
    readItems read fuel (spellItems s level items ++ (close ++ ']' :: rest)) =
      some (normalItems items, rest) := by
  induction items generalizing fuel with
  | nil => exact absurd rfl hne
  | cons item items ih =>
    obtain ⟨hfirst, hrest⟩ := List.forall_mem_cons.1 hitems
    obtain ⟨fuel, rfl⟩ : ∃ k, fuel = k + 1 := Nat.exists_eq_succ_of_ne_zero (by rintro rfl; cases hfuel)
    cases items with
    | nil =>
      obtain ⟨after, hread, hskip⟩ :=
        hfirst (close ++ ']' :: rest) (ends_of_blanks hclose (ends_cons (by simp) rest))
      exact readItems_last hread (hskip.trans (skipBlanks_append hclose _))
    | cons next items =>
      have hthen := ih hrest (List.cons_ne_nil _ _) (Nat.le_of_succ_le_succ hfuel)
      obtain ⟨after, hread, hskip⟩ :=
        hfirst (',' :: (spellItems s level (next :: items) ++ (close ++ ']' :: rest)))
          (ends_cons (Or.inl rfl) _)
      rw [List.append_assoc] at hread
      rw [spellItems, List.append_assoc, List.append_assoc]
      exact readItems_more hread hskip hthen

theorem readMembers_spellMembers (hclose : skipBlanks close = []) {members : List (String × Json)}
    (hmembers : ∀ m ∈ members, Reads read (s.afterColon ++ m.2.spell s level) m.2.normal)
    (hne : members ≠ []) (hfuel : members.length ≤ fuel) :
    readMembers read fuel (spellMembers s level members ++ (close ++ '\x7d' :: rest)) =
      some (normalMembers members, rest) := by
  induction members generalizing fuel with
  | nil => exact absurd rfl hne
  | cons m members ih =>
    obtain ⟨name, value⟩ := m
    obtain ⟨hfirst, hrest⟩ := List.forall_mem_cons.1 hmembers
    obtain ⟨fuel, rfl⟩ : ∃ k, fuel = k + 1 := Nat.exists_eq_succ_of_ne_zero (by rintro rfl; cases hfuel)
    have hname : ∀ more, skipBlanks (s.gap level ++ (quote name ++ more)) =
        '"' :: (name.toList.flatMap encodeChar ++ '"' :: more) := by
      intro more
      rw [skipBlanks_append (s.gap_blank level), quote, List.cons_append, List.append_assoc]
      rfl
    cases members with
    | nil =>
      obtain ⟨after, hread, hskip⟩ :=
        hfirst (close ++ '\x7d' :: rest) (ends_of_blanks hclose (ends_cons (by simp) rest))
      rw [spellMembers, List.append_assoc, List.append_assoc]
      exact readMembers_last (hname _) (readQuoted_encode _ _) rfl hread
        (hskip.trans (skipBlanks_append hclose _))
    | cons next members =>
      have hthen := ih hrest (List.cons_ne_nil _ _) (Nat.le_of_succ_le_succ hfuel)
      obtain ⟨after, hread, hskip⟩ :=
        hfirst (',' :: (spellMembers s level (next :: members) ++ (close ++ '\x7d' :: rest)))
          (ends_cons (Or.inl rfl) _)
      simp only [spellMembers, List.append_assoc, List.cons_append] at hread ⊢
      exact readMembers_more (hname _) (readQuoted_encode _ _) rfl hread hskip hthen

end Items

/-! ## Values -/

section Values

variable {limit levels : Nat} {text inner rest : List Char}

theorem readValue_closing (h : skipBlanks text = ']' :: rest) : readValue limit levels text = none := by
  rw [readValue.eq_def]
  dsimp only
  rw [h]
  rfl

theorem readValue_eq_string (hopen : skipBlanks text = '"' :: inner) : readValue limit levels text =
    (readQuoted inner).map fun (str, rest) => (.string str, rest) := by
  rw [readValue.eq_def]
  dsimp only
  rw [hopen]
  rfl

theorem readValue_eq_array (hopen : skipBlanks text = '[' :: inner) : readValue limit (levels + 1) text =
    match skipBlanks inner with
    | ']' :: rest => some (.array [], rest)
    | _ => (readItems (readValue limit levels) limit inner).map fun (items, rest) => (.array items, rest) := by
  rw [readValue.eq_def]
  dsimp only
  rw [hopen]
  rfl

theorem readValue_eq_object (hopen : skipBlanks text = '\x7b' :: inner) : readValue limit (levels + 1) text =
    match skipBlanks inner with
    | '\x7d' :: rest => some (.object [], rest)
    | _ => (readMembers (readValue limit levels) limit inner).map fun (members, rest) =>
        (.object (sortMembers members), rest) := by
  rw [readValue.eq_def]
  dsimp only
  rw [hopen]
  rfl

theorem readValue_string {str : String} (hopen : skipBlanks text = '"' :: inner)
    (hquoted : readQuoted inner = some (str, rest)) :
    readValue limit levels text = some (.string str, rest) := by
  rw [readValue_eq_string hopen, hquoted]
  rfl

theorem readValue_array {items : List Json} (hopen : skipBlanks text = '[' :: inner)
    (hitems : readItems (readValue limit levels) limit inner = some (items, rest)) :
    readValue limit (levels + 1) text = some (.array items, rest) := by
  rw [readValue_eq_array hopen]
  split
  · rename_i hclosing
    cases limit with
    | zero => cases hitems
    | succ limit =>
      rw [readItems, readValue_closing hclosing] at hitems
      cases hitems
  · rw [hitems]
    rfl

theorem readValue_object {members : List (String × Json)} (hopen : skipBlanks text = '\x7b' :: inner)
    (hmembers : readMembers (readValue limit levels) limit inner = some (members, rest)) :
    readValue limit (levels + 1) text = some (.object (sortMembers members), rest) := by
  rw [readValue_eq_object hopen]
  split
  · rename_i hclosing
    cases limit with
    | zero => cases hmembers
    | succ limit =>
      rw [readMembers, hclosing] at hmembers
      cases hmembers
  · rw [hmembers]
    rfl

end Values

theorem Reads.of_blanks {limit levels : Nat} {text blanks : List Char} {value : Json}
    (hblanks : skipBlanks blanks = []) (h : Reads (readValue limit levels) text value) :
    Reads (readValue limit levels) (blanks ++ text) value := by
  intro rest hrest
  obtain ⟨after, hread, hskip⟩ := h rest hrest
  refine ⟨after, ?_, hskip⟩
  rw [List.append_assoc, readValue_skipBlanks (skipBlanks_append hblanks _), hread]

theorem reads_number {limit levels : Nat} {n : Number} (h : ReadsBack n) :
    Reads (readValue limit levels) n.text.toList (.number n) := by
  intro rest hrest
  obtain ⟨⟨value, after⟩, hread, hafter⟩ := Option.bind_eq_some_iff.1 h
  dsimp only at hafter
  split at hafter
  · rename_i hempty
    cases hafter
    exact ⟨after ++ rest, readValue_number_append hread hrest,
      skipBlanks_append (List.isEmpty_iff.1 hempty) rest⟩
  · cases hafter

section Inside

variable {s : Spacing} {limit levels level : Nat}

theorem reads_spell_array {items : List Json} (hlimit : ((Json.array items).spell s level).length ≤ limit)
    (h : ∀ i ∈ items, Reads (readValue limit levels) (i.spell s (level + 1)) i.normal) :
    Reads (readValue limit (levels + 1)) ((Json.array items).spell s level) (Json.array items).normal := by
  refine fun rest _ => ⟨rest, ?_, rfl⟩
  cases items with
  | nil =>
    rw [readValue.eq_def]
    rfl
  | cons item items =>
    have hcount := length_le_length_spellItems s (level + 1) (item :: items)
    rw [spell, List.length_cons, List.length_append, List.length_append, List.length_singleton] at hlimit
    rw [spell, List.cons_append, List.append_assoc, List.append_assoc, normal]
    exact readValue_array rfl (readItems_spellItems (s.gap_blank level)
      (fun i hi => (h i hi).of_blanks (s.gap_blank _)) (List.cons_ne_nil _ _) (by omega))

theorem reads_spell_object {members : List (String × Json)}
    (hlimit : ((Json.object members).spell s level).length ≤ limit)
    (h : ∀ m ∈ members, Reads (readValue limit levels) (m.2.spell s (level + 1)) m.2.normal) :
    Reads (readValue limit (levels + 1)) ((Json.object members).spell s level)
      (Json.object members).normal := by
  refine fun rest _ => ⟨rest, ?_, rfl⟩
  cases members with
  | nil =>
    rw [readValue.eq_def]
    rfl
  | cons m members =>
    have hcount := length_le_length_spellMembers s (level + 1) (m :: members)
    rw [spell, List.length_cons, List.length_append, List.length_append, List.length_singleton] at hlimit
    rw [spell, List.cons_append, List.append_assoc, List.append_assoc, normal]
    exact readValue_object rfl (readMembers_spellMembers (s.gap_blank level)
      (fun i hi => (h i hi).of_blanks s.afterColon_blank) (List.cons_ne_nil _ _) (by omega))

end Inside

/-- **The text of a value is read as the value with its members sorted,** in front of anything that ends a
number. -/
theorem reads_spell {s : Spacing} {limit levels level : Nat} {value : Json}
    (hlimit : (value.spell s level).length ≤ limit) (hdepth : value.depth ≤ levels)
    (hnumbers : Numbers ReadsBack value) :
    Reads (readValue limit levels) (value.spell s level) value.normal := by
  induction levels using Nat.strongRecOn generalizing level value with
  | ind levels ih =>
    cases hnumbers with
    | null =>
      refine fun rest _ => ⟨rest, ?_, rfl⟩
      rw [readValue.eq_def]
      rfl
    | boolean b =>
      refine fun rest _ => ⟨rest, ?_, rfl⟩
      rw [readValue.eq_def]
      cases b <;> rfl
    | string str =>
      refine fun rest _ => ⟨rest, readValue_string ?_ (readQuoted_encode str rest), rfl⟩
      show skipBlanks ((String.ofList (quote str)).toList ++ rest) = _
      rw [String.toList_ofList, quote, List.cons_append, List.append_assoc]
      rfl
    | number hn => exact reads_number hn
    | @array items hitems =>
      obtain ⟨levels, rfl⟩ : ∃ k, levels = k + 1 :=
        Nat.exists_eq_succ_of_ne_zero (by rintro rfl; cases hdepth)
      refine reads_spell_array hlimit fun i hi => ?_
      have hlength := (length_spell_le_spell_array s level hi).trans hlimit
      rw [depth] at hdepth
      have hdeep := depth_le_depthOfItems hi
      exact ih levels (Nat.lt_succ_self _) hlength (by omega) (hitems i hi)
    | @object members hmembers =>
      obtain ⟨levels, rfl⟩ : ∃ k, levels = k + 1 :=
        Nat.exists_eq_succ_of_ne_zero (by rintro rfl; cases hdepth)
      refine reads_spell_object hlimit fun m hm => ?_
      have hlength := (length_spell_le_spell_object s level hm).trans hlimit
      rw [depth] at hdepth
      have hdeep := depth_le_depthOfMembers hm
      exact ih levels (Nat.lt_succ_self _) hlength (by omega) (hmembers m hm)

/-- A text that is read as a value with its members sorted, in front of anything that ends a number. -/
def IsText (value : Json) (text : List Char) : Prop :=
  ∀ limit levels : Nat, text.length ≤ limit → value.depth ≤ levels →
    Reads (readValue limit levels) text value.normal

section Texts

variable {value : Json} {text blanks : List Char}

theorem isText_compact (h : Numbers ReadsBack value) : IsText value value.compact.toList := by
  rw [toList_compact 0]
  exact fun _ _ hlimit hdepth => reads_spell hlimit hdepth h

theorem isText_pretty (h : Numbers ReadsBack value) : IsText value value.pretty.toList := by
  rw [pretty, toList_indented]
  exact fun _ _ hlimit hdepth => reads_spell hlimit hdepth h

theorem IsText.append_blanks (h : IsText value text) (hblanks : skipBlanks blanks = []) :
    IsText value (text ++ blanks) := by
  intro limit levels hlimit hdepth rest hrest
  rw [List.length_append] at hlimit
  have hlength : text.length ≤ limit := by omega
  obtain ⟨after, hread, hskip⟩ := h _ _ hlength hdepth (blanks ++ rest) (ends_of_blanks hblanks hrest)
  rw [List.append_assoc]
  exact ⟨after, hread, hskip.trans (skipBlanks_append hblanks rest)⟩

theorem IsText.ne_nil (h : IsText value text) : text ≠ [] := by
  rintro rfl
  obtain ⟨after, hread, -⟩ := h 0 value.depth (Nat.le_refl _) (Nat.le_refl _) [] (fun c hc => by cases hc)
  rw [readValue.eq_def] at hread
  cases hread

/-- A text is one also as the value of the only member of an object. -/
theorem IsText.member (h : IsText value text) (name : String) :
    IsText (.object [(name, value)]) ('\x7b' :: (quote name ++ ':' :: (text ++ ['\x7d']))) := by
  intro limit levels hlimit hdepth rest hrest
  obtain ⟨levels, rfl⟩ : ∃ k, levels = k + 1 := Nat.exists_eq_succ_of_ne_zero (by rintro rfl; cases hdepth)
  obtain ⟨limit, rfl⟩ : ∃ k, limit = k + 1 := Nat.exists_eq_succ_of_ne_zero (by rintro rfl; cases hlimit)
  have hdepth : value.depth ≤ levels := by
    rw [depth, depthOfMembers, depthOfMembers] at hdepth
    omega
  have hlength : text.length ≤ limit + 1 := by
    simp only [List.length_cons, List.length_append] at hlimit
    omega
  obtain ⟨after, hread, hskip⟩ := h _ _ hlength hdepth ('\x7d' :: rest) (ends_cons (by simp) rest)
  have hmembers : readMembers (readValue (limit + 1) levels) (limit + 1)
      (quote name ++ ':' :: (text ++ '\x7d' :: rest)) = some ([(name, value.normal)], rest) := by
    have hname : skipBlanks (quote name ++ ':' :: (text ++ '\x7d' :: rest)) =
        '"' :: (name.toList.flatMap encodeChar ++ '"' :: ':' :: (text ++ '\x7d' :: rest)) := by
      rw [quote, List.cons_append, List.append_assoc]
      rfl
    exact readMembers_last hname (readQuoted_encode name _) rfl hread hskip
  refine ⟨rest, ?_, rfl⟩
  have hsame : '\x7b' :: (quote name ++ ':' :: (text ++ ['\x7d'])) ++ rest =
      '\x7b' :: (quote name ++ ':' :: (text ++ '\x7d' :: rest)) := by simp
  rw [hsame]
  exact readValue_object rfl hmembers

/-- **A text of a value is accepted,** and gives the value with its members sorted. -/
theorem IsText.parse (h : IsText value text) (hdepth : value.depth ≤ levelLimit) :
    parse (String.ofList text) = some value.normal := by
  obtain ⟨after, hread, hskip⟩ := h _ _ (Nat.le_refl _) hdepth [] (fun c hc => by cases hc)
  rw [List.append_nil] at hread
  rw [Json.parse, String.toList_ofList, hread]
  show (if (skipBlanks after).isEmpty then some value.normal else none) = _
  rw [hskip]
  rfl

theorem normalItems_eq_map (items : List Json) : normalItems items = items.map normal := by
  induction items with
  | nil => rfl
  | cons item items ih => rw [normalItems, ih, List.map_cons]

theorem depthOfItems_le {items : List Json} {levels : Nat} (h : ∀ item ∈ items, item.depth ≤ levels) :
    depthOfItems items ≤ levels := by
  induction items with
  | nil => exact Nat.zero_le _
  | cons item items ih =>
    obtain ⟨hitem, hitems⟩ := List.forall_mem_cons.1 h
    rw [depthOfItems]
    exact max_le hitem (ih hitems)

/-- A text of a list is accepted, and gives each entry with its members sorted. -/
theorem IsText.parse_array {β : Type} {write : β → Json} {entries : List β}
    (h : IsText (.array (entries.map write)) text) (hdepth : ∀ b ∈ entries, (write b).depth < levelLimit) :
    Json.parse (String.ofList text) = some (.array (entries.map fun b => (write b).normal)) := by
  have hitems : depthOfItems (entries.map write) ≤ levelLimit - 1 :=
    depthOfItems_le (List.forall_mem_map.2 fun b hb => Nat.le_pred_of_lt (hdepth b hb))
  have hparse := h.parse (by rw [depth]; exact Nat.succ_le_of_lt (Nat.lt_of_le_of_lt hitems (by decide)))
  rwa [normal, normalItems_eq_map, List.map_map] at hparse

end Texts

end QueueBoard.Json
