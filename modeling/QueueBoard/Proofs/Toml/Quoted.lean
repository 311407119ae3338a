import Mathlib.Tactic.SplitIfs
import QueueBoard.Proofs.Text.Splitting
import QueueBoard.Toml.Quoted
/-!
# TOML strings read back

Whichever of the four ways a string is written in, it is read back, and what follows it is left
(`readString_quote`). Across lines that rests on the runs of quotes: no more than two stand in a row before the
closing ones (`Runs`).
-/

namespace QueueBoard.Toml

open Text (prepend)

variable {text rest : List Char} {c mark : Char}

/-! ## Closing marks -/

section

variable (hrest : ∀ c ∈ rest.head?, c ≠ mark)

include hrest

theorem takeWhile_replicate (count : Nat) :
    (List.replicate count mark ++ rest).takeWhile (· == mark) = List.replicate count mark :=
  (Text.takeWhile_append (by simp) (by simpa using hrest)).1

theorem closing?_few {count : Nat} (h : count < 3) : closing? mark (List.replicate count mark ++ rest) = none := by
  rw [closing?, takeWhile_replicate hrest, List.length_replicate]
  exact if_pos h

/-- Three marks close, and one or two before them belong to the text. -/
theorem closing?_more {inside : Nat} (h : inside ≤ 2) :
    closing? mark (List.replicate (inside + 3) mark ++ rest) = some (List.replicate inside mark, rest) := by
  rw [closing?, takeWhile_replicate hrest, List.length_replicate]
  rw [if_neg (by omega), Nat.add_sub_cancel, Nat.min_eq_left h, Nat.min_eq_left (by omega),
    List.drop_left' (List.length_replicate)]

end

theorem head_ne (h : c ≠ mark) (rest : List Char) : ∀ d ∈ (c :: rest).head?, d ≠ mark := by simpa using h

theorem closing?_cons (h : c ≠ mark) : closing? mark (c :: rest) = none :=
  closing?_few (head_ne h rest) (show 0 < 3 by decide)

/-! ## Characters -/

theorem codePoint?_hexDigits {n : Nat} (h : n < 128) :
    codePoint? ['0', '0', hexDigit (n / 16), hexDigit (n % 16)] = some (Char.ofNat n) := by
  have hall : ∀ n < 128, codePoint? ['0', '0', hexDigit (n / 16), hexDigit (n % 16)] = some (Char.ofNat n) := by
    decide +kernel
  exact hall n h

theorem lt_of_needsCode (h : needsCode c = true) : c.toNat < 128 := by
  simp only [needsCode, Bool.or_eq_true, Bool.and_eq_true, decide_eq_true_eq, beq_iff_eq] at h
  omega

theorem isPlain_of_not_needsCode (h : needsCode c = false) (hbreak : c ≠ '\n') : isPlain c = true := by
  simp [isPlain, h, hbreak]

/-- A reader that takes what stands for one character at a time: an escape, or the character itself. -/
structure ReadsCharacters (read : List Char → Option (List Char × List Char)) : Prop where
  code : ∀ a b c d x rest, codePoint? [a, b, c, d] = some x →
    read ('\\' :: 'u' :: a :: b :: c :: d :: rest) = prepend x (read rest)
  short : ∀ e x rest, shortEscape? e = some x → read ('\\' :: e :: rest) = prepend x (read rest)
  plain : ∀ c rest, c ≠ '"' → c ≠ '\\' → isPlain c = true → read (c :: rest) = prepend c (read rest)

theorem ReadsCharacters.escapeChar {read : List Char → Option (List Char × List Char)} (h : ReadsCharacters read)
    {multiline : Bool} (hbreak : multiline = true → ∀ rest, read ('\n' :: rest) = prepend '\n' (read rest))
    (hquote : c ≠ '"') (rest : List Char) : read (escapeChar multiline c ++ rest) = prepend c (read rest) := by
  rw [Toml.escapeChar]
  by_cases hbackslash : c = '\\'
  · rw [if_pos hbackslash, hbackslash]
    exact h.short '\\' '\\' rest rfl
  by_cases htab : c = '\t'
  · rw [if_neg hbackslash, if_pos htab, htab]
    exact h.short 't' '\t' rest rfl
  by_cases hline : c = '\n'
  · rw [if_neg hbackslash, if_neg htab, if_pos hline, hline]
    cases multiline with
    | true => exact hbreak rfl rest
    | false => exact h.short 'n' '\n' rest rfl
  rw [if_neg hbackslash, if_neg htab, if_neg hline]
  split_ifs with hb hf hr hcode
  · rw [← Char.ofNat_toNat c, hb]
    exact h.short 'b' _ rest rfl
  · rw [← Char.ofNat_toNat c, hf]
    exact h.short 'f' _ rest rfl
  · rw [hr]
    exact h.short 'r' '\r' rest rfl
  · have hpoint := codePoint?_hexDigits (lt_of_needsCode hcode)
    rw [Char.ofNat_toNat] at hpoint
    exact h.code _ _ _ _ c rest hpoint
  · exact h.plain c rest hquote hbackslash (isPlain_of_not_needsCode (by simpa using hcode) hline)

theorem readsCharacters_basic : ReadsCharacters readBasic where
  code a b c d x rest h := by rw [readBasic, h]
  short e x rest h := by
    rw [readBasic, h]
    · rintro a b c d rest' rfl
      cases h
    · rintro a b c d e f g h rest' rfl
      cases h
  plain c rest hquote hbackslash hplain := by
    rw [readBasic]
    · simp [hbackslash, hplain]
    · exact hquote
    · rintro a b c d rest' rfl
      exact absurd rfl hbackslash
    · rintro a b c d e f g h rest' rfl
      exact absurd rfl hbackslash
    · rintro e rest' rfl
      exact absurd rfl hbackslash

theorem readsCharacters_multiline : ReadsCharacters (readMultilineBasic false) where
  code a b c d x rest h := by rw [readMultilineBasic, h]
  short e x rest h := by
    rw [readMultilineBasic, h]
    · rintro a b c d rest' rfl
      cases h
    · rintro a b c d e f g h rest' rfl
      cases h
  plain c rest hquote hbackslash hplain := by
    rw [readMultilineBasic, closing?_cons hquote]
    · simp [hbackslash, hplain]
    · exact fun _ _ _ _ _ hc => absurd hc hbackslash
    · exact fun _ _ _ _ _ _ _ _ _ hc => absurd hc hbackslash
    · exact fun _ _ hc => absurd hc hbackslash
    · rintro rest' rfl
      cases hplain

theorem readMultilineBasic_break (rest : List Char) :
    readMultilineBasic false ('\n' :: rest) = prepend '\n' (readMultilineBasic false rest) := by
  rw [readMultilineBasic, closing?_cons (by decide)] <;> simp

/-! ## Quotes in a row -/

/-- At the front of a text there is at most one mark. -/
def AtMostOne (mark : Char) (text : List Char) : Prop :=
  text = [] ∨ text = [mark] ∨ (∃ c more, text = c :: more ∧ c ≠ mark) ∨ ∃ c more, text = mark :: c :: more ∧ c ≠ mark

theorem atMostOne_of_head (h : ∀ c ∈ text.head?, c ≠ mark) : AtMostOne mark text := by
  cases text with
  | nil => exact .inl rfl
  | cons c text => exact .inr (.inr (.inl ⟨c, text, rfl, h c rfl⟩))

theorem atMostOne_mark (h : ∀ c ∈ text.head?, c ≠ mark) : AtMostOne mark (mark :: text) := by
  cases text with
  | nil => exact .inr (.inl rfl)
  | cons c text => exact .inr (.inr (.inr ⟨c, text, rfl, h c rfl⟩))

/-- A reader across lines: what marks close ends the text, and those that close nothing are characters. -/
def ReadsMarks (mark : Char) (read : List Char → Option (List Char × List Char)) : Prop :=
  ∀ rest, read (mark :: rest) = (closing? mark (mark :: rest)).or (prepend mark (read rest))

theorem ReadsMarks.closed {read : List Char → Option (List Char × List Char)} (h : ReadsMarks mark read)
    (hrest : ∀ c ∈ rest.head?, c ≠ mark) {inside : Nat} (hinside : inside ≤ 2) :
    read (List.replicate (inside + 3) mark ++ rest) = some (List.replicate inside mark, rest) := by
  have hclosing := closing?_more hrest hinside
  rw [List.replicate_succ, List.cons_append] at hclosing ⊢
  rw [h, hclosing, Option.some_or]

theorem ReadsMarks.character {read : List Char → Option (List Char × List Char)} (h : ReadsMarks mark read)
    (hclosing : closing? mark (mark :: rest) = none) : read (mark :: rest) = prepend mark (read rest) := by
  rw [h, hclosing, Option.none_or]

/-- A mark is read as a character if at most one more follows before anything else, or before the closing ones. -/
theorem ReadsMarks.before {read : List Char → Option (List Char × List Char)} (h : ReadsMarks mark read)
    (hrest : ∀ c ∈ rest.head?, c ≠ mark) (htext : AtMostOne mark text) :
    read (mark :: (text ++ mark :: mark :: mark :: rest)) =
      prepend mark (read (text ++ mark :: mark :: mark :: rest)) := by
  have hclosed (inside : Nat) (hinside : inside ≤ 2) := h.closed hrest hinside
  rcases htext with rfl | rfl | ⟨c, more, rfl, hc⟩ | ⟨c, more, rfl, hc⟩
  · exact (hclosed 1 (by decide)).trans (congrArg (prepend mark) (hclosed 0 (by decide))).symm
  · exact (hclosed 2 (by decide)).trans (congrArg (prepend mark) (hclosed 1 (by decide))).symm
  · exact h.character (closing?_few (head_ne hc _) (show 1 < 3 by decide))
  · exact h.character (closing?_few (head_ne hc _) (show 2 < 3 by decide))

theorem readsMarks_basic : ReadsMarks '"' (readMultilineBasic false) := by
  intro rest
  rw [readMultilineBasic]
  · cases closing? '"' ('"' :: rest) <;> rfl
  all_goals simp

theorem readsMarks_literal : ReadsMarks '\'' readMultilineLiteral := by
  intro rest
  rw [readMultilineLiteral]
  · cases closing? '\'' ('\'' :: rest) <;> rfl
  all_goals simp

/-! ## Basic strings -/

theorem head_escapeChar (hquote : c ≠ '"') (multiline : Bool) (rest : List Char) :
    ∀ d ∈ (escapeChar multiline c ++ rest).head?, d ≠ '"' := by
  rw [escapeChar]
  split_ifs <;> simp [hquote]

/-- Where no quote may stand as it is, there is none at the front. -/
theorem head_escape {multiline : Bool} {quotes : Nat} (h : multiline = false ∨ 2 ≤ quotes) (text : List Char) :
    ∀ d ∈ (escape multiline quotes text).head?, d ≠ '"' := by
  cases text with
  | nil => simp [escape]
  | cons c text =>
    rw [escape]
    by_cases hc : c = '"'
    · have hno : (multiline && decide (quotes < 2)) = false := by
        rcases h with rfl | h
        · rfl
        · rw [decide_eq_false (by omega), Bool.and_false]
      rw [if_pos hc, hno]
      simp
    · rw [if_neg hc]
      exact head_escapeChar hc multiline _

/-- After a quote that is no escape there is at most one more of them. -/
theorem atMostOne_escape {quotes : Nat} (h : quotes < 2) (text : List Char) :
    AtMostOne '"' (escape true (quotes + 1) text) := by
  obtain rfl | rfl : quotes = 0 ∨ quotes = 1 := by omega
  · cases text with
    | nil => exact .inl rfl
    | cons c text =>
      rw [escape]
      by_cases hc : c = '"'
      · rw [if_pos hc, if_pos (by decide)]
        exact atMostOne_mark (head_escape (.inr (Nat.le_refl 2)) text)
      · rw [if_neg hc]
        exact atMostOne_of_head (head_escapeChar hc true _)
  · exact atMostOne_of_head (head_escape (.inr (Nat.le_refl 2)) text)

theorem readMultilineBasic_escape (hrest : ∀ c ∈ rest.head?, c ≠ '"') (text : List Char) {quotes : Nat}
    (h : quotes ≤ 2) :
    readMultilineBasic false (escape true quotes text ++ '"' :: '"' :: '"' :: rest) = some (text, rest) := by
  induction text generalizing quotes with
  | nil => exact readsMarks_basic.closed hrest (Nat.zero_le 2)
  | cons c text ih =>
    rw [escape]
    by_cases hc : c = '"'
    · rw [if_pos hc, hc]
      by_cases hquotes : quotes < 2
      · rw [if_pos (by simpa using hquotes), List.cons_append,
          readsMarks_basic.before hrest (atMostOne_escape hquotes text), ih (by omega)]
        rfl
      · rw [if_neg (by simpa using hquotes), List.cons_append, List.cons_append,
          readsCharacters_multiline.short '"' '"' _ rfl, ih (by omega)]
        rfl
    · rw [if_neg hc, List.append_assoc, readsCharacters_multiline.escapeChar (fun _ => readMultilineBasic_break) hc,
        ih (by omega)]
      rfl

theorem readBasic_escape (text : List Char) (quotes : Nat) :
    readBasic (escape false quotes text ++ '"' :: rest) = some (text, rest) := by
  induction text generalizing quotes with
  | nil => rfl
  | cons c text ih =>
    rw [escape]
    by_cases hc : c = '"'
    · rw [if_pos hc, hc, if_neg (by simp), List.cons_append, List.cons_append,
        readsCharacters_basic.short '"' '"' _ rfl, ih]
      rfl
    · rw [if_neg hc, List.append_assoc, readsCharacters_basic.escapeChar (by simp) hc, ih]
      rfl

/-! ## Literal strings -/

theorem readLiteral_append (h : ∀ c ∈ text, c ≠ '\'' ∧ isPlain c = true) :
    readLiteral (text ++ '\'' :: rest) = some (text, rest) := by
  induction text with
  | nil => rfl
  | cons c text ih =>
    obtain ⟨⟨hquote, hplain⟩, htext⟩ := List.forall_mem_cons.1 h
    rw [List.cons_append, readLiteral, if_pos hplain, ih htext]
    · rfl
    · exact hquote

/-- No more than `limit` marks in a row, and no more than `front` at the front. -/
def Runs (mark : Char) (limit : Nat) : (front : Nat) → List Char → Prop
  | _, [] => True
  | front, c :: rest => if c = mark then 0 < front ∧ Runs mark limit (front - 1) rest else Runs mark limit limit rest

theorem runs_mark {limit front : Nat} :
    Runs mark limit front (mark :: text) ↔ 0 < front ∧ Runs mark limit (front - 1) text := by
  rw [Runs, if_pos rfl]

theorem runs_cons {limit front : Nat} (h : c ≠ mark) :
    Runs mark limit front (c :: text) ↔ Runs mark limit limit text := by
  rw [Runs, if_neg h]

theorem le_longestRun_go (text : List Char) (longest current : Nat) :
    longest ≤ longestRun.go mark longest current text := by
  induction text generalizing longest current with
  | nil => exact Nat.le_refl _
  | cons c text ih =>
    rw [longestRun.go]
    split
    · exact Nat.le_trans (Nat.le_max_left _ _) (ih _ _)
    · exact ih _ _

theorem runs_of_longestRun_go {limit longest current : Nat} (h : longestRun.go mark longest current text ≤ limit) :
    Runs mark limit (limit - current) text := by
  induction text generalizing longest current with
  | nil => trivial
  | cons c text ih =>
    rw [longestRun.go] at h
    by_cases hc : c = mark
    · subst hc
      rw [if_pos (by simp)] at h
      have hcurrent := Nat.le_trans (Nat.le_max_right _ _) (Nat.le_trans (le_longestRun_go text _ _) h)
      exact runs_mark.2 ⟨by omega, ih h⟩
    · rw [if_neg (by simpa using hc)] at h
      exact (runs_cons hc).2 (ih h)

/-- No run of marks is longer than the longest one. -/
theorem runs_of_longestRun {limit : Nat} (h : longestRun mark text ≤ limit) : Runs mark limit limit text :=
  runs_of_longestRun_go h

theorem Runs.atMostOne {limit front : Nat} (h : Runs mark limit front text) (hfront : front ≤ 1) :
    AtMostOne mark text := by
  cases text with
  | nil => exact .inl rfl
  | cons c text =>
    by_cases hc : c = mark
    · subst hc
      refine atMostOne_mark fun d hd => ?_
      rintro rfl
      cases text with
      | nil => cases hd
      | cons e text =>
        cases hd
        have hfirst := runs_mark.1 h
        have hsecond := runs_mark.1 hfirst.2
        omega
    · exact atMostOne_of_head (by simpa using hc)

theorem Runs.not_mem (h : Runs mark 0 0 text) : mark ∉ text := by
  induction text with
  | nil => simp
  | cons c text ih =>
    by_cases hc : c = mark
    · subst hc
      exact absurd (runs_mark.1 h).1 (by decide)
    · have := ih ((runs_cons hc).1 h)
      simp [Ne.symm hc, this]

theorem readMultilineLiteral_append (hrest : ∀ c ∈ rest.head?, c ≠ '\'') {front : Nat}
    (hruns : Runs '\'' 2 front text) (hfront : front ≤ 2) (hcodes : ∀ c ∈ text, needsCode c = false) :
    readMultilineLiteral (text ++ '\'' :: '\'' :: '\'' :: rest) = some (text, rest) := by
  induction text generalizing front with
  | nil => exact readsMarks_literal.closed hrest (Nat.zero_le 2)
  | cons c text ih =>
    obtain ⟨hcode, hmore⟩ := List.forall_mem_cons.1 hcodes
    by_cases hc : c = '\''
    · subst hc
      have htext := (runs_mark.1 hruns).2
      rw [List.cons_append, readsMarks_literal.before hrest (htext.atMostOne (by omega)), ih htext (by omega) hmore]
      rfl
    · have hcharacter : (c == '\n' || isPlain c) = true := by
        by_cases hbreak : c = '\n' <;> simp [isPlain, hcode, hbreak]
      rw [List.cons_append, readMultilineLiteral, closing?_cons hc, if_pos hcharacter,
        ih ((runs_cons hc).1 hruns) (Nat.le_refl 2) hmore]
      · rfl
      · rintro more rfl
        cases hcode

/-! ## All ways -/

/-- A literal string on one line has no quote, control or line break. -/
theorem quoting_literal (h : Quoting.of text = .literal) : ∀ c ∈ text, c ≠ '\'' ∧ isPlain c = true := by
  have hway : text.any needsCode = false ∧ longestRun '\'' text = 0 ∧ text.contains '\n' = false := by
    rw [Quoting.of] at h
    split_ifs at h with hbasic hliteral
    simpa [and_assoc] using hliteral
  obtain ⟨hcodes, hsingle, hbreak⟩ := hway
  have hquote : '\'' ∉ text := (runs_of_longestRun (Nat.le_of_eq hsingle)).not_mem
  intro c hc
  refine ⟨fun heq => hquote (heq ▸ hc), isPlain_of_not_needsCode (by simpa using List.any_eq_false.1 hcodes c hc) ?_⟩
  rintro rfl
  simp [hc] at hbreak

/-- A literal string across lines has no three quotes in a row and no control. -/
theorem quoting_multilineLiteral (h : Quoting.of text = .multilineLiteral) :
    Runs '\'' 2 2 text ∧ ∀ c ∈ text, needsCode c = false := by
  have hway : text.any needsCode = false ∧ longestRun '\'' text ≤ 2 := by
    rw [Quoting.of] at h
    split_ifs at h with hbasic hliteral hmultiline hsingle
    simpa using hsingle
  exact ⟨runs_of_longestRun hway.2, fun c hc => by simpa using List.any_eq_false.1 hway.1 c hc⟩

/-- Two marks at the front are there only if the text between them is empty. -/
theorem front_ne {front : List Char} (hfront : ∀ c ∈ front.head?, c ≠ mark) (hrest : ∀ c ∈ rest.head?, c ≠ mark)
    (more : List Char) : front ++ mark :: rest ≠ mark :: mark :: more := by
  intro heq
  cases front with
  | nil =>
    cases heq
    exact hrest mark rfl rfl
  | cons c front => exact hfront c rfl (List.cons.inj heq).1

/-- **A string is read back**, whatever it holds, and what follows it is left if that is no quote. -/
theorem readString_quote (s : String) (hrest : ∀ c ∈ rest.head?, c ≠ '"' ∧ c ≠ '\'') :
    readString (quote s ++ rest) = some (s, rest) := by
  have hdouble : ∀ c ∈ rest.head?, c ≠ '"' := fun c hc => (hrest c hc).1
  have hsingle : ∀ c ∈ rest.head?, c ≠ '\'' := fun c hc => (hrest c hc).2
  rw [quote]
  cases hway : Quoting.of s.toList with
  | basic =>
    simp only [List.append_assoc, List.cons_append, List.nil_append]
    rw [readString, readBasic_escape]
    · simp
    · exact fun more => front_ne (head_escape (.inl rfl) _) hdouble more
  | literal =>
    have hplain := quoting_literal hway
    simp only [List.append_assoc, List.cons_append, List.nil_append]
    rw [readString, readLiteral_append hplain]
    · simp
    · exact fun more => front_ne (fun c hc => (hplain c (List.mem_of_mem_head? hc)).1) hsingle more
  | multilineBasic =>
    simp only [List.append_assoc, List.cons_append, List.nil_append]
    rw [readString, skipLineBreak, readMultilineBasic_escape hdouble _ (Nat.zero_le 2)]
    simp
  | multilineLiteral =>
    obtain ⟨hruns, hcodes⟩ := quoting_multilineLiteral hway
    simp only [List.append_assoc, List.cons_append, List.nil_append]
    rw [readString, skipLineBreak, readMultilineLiteral_append hsingle hruns (Nat.le_refl 2) hcodes]
    simp

end QueueBoard.Toml
