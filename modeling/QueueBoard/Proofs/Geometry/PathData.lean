import QueueBoard.Geometry.Path
import QueueBoard.Proofs.Geometry.Coordinate
import QueueBoard.Text.Basic
/-!
# Path data

A path's text is split again by a scanner that takes numbers as long as they can be: an optional sign, digits around
an optional point, an optional exponent. Compact coordinates are not changed by what follows them in a path
(`PathData.tokens?_numeral`), so the text of a path of finite coordinates has the commands and the coordinates that
were written into it (`Path.tokens?_text`).
-/

namespace QueueBoard

open Decimal

namespace PathData

/-! ## The scanner -/

/-- What path data is made of. -/
inductive Token where
  | command (letter : Char)
  | number (text : List Char)
  deriving Repr, DecidableEq

def commandLetters : List Char :=
  ['M', 'm', 'Z', 'z', 'L', 'l', 'H', 'h', 'V', 'v', 'C', 'c', 'S', 's', 'Q', 'q', 'T', 't', 'A', 'a']

def isCommand (c : Char) : Bool := commandLetters.contains c

/-- What may stand between numbers. -/
def isSeparator (c : Char) : Bool := c == ',' || c.isWhitespace

/-- A way to split off the front of a text. -/
def Span : Type := List Char → List Char × List Char

/-- The front of one, and after it the front of the other. -/
def Span.andThen (f g : Span) : Span := fun text =>
  let (front, rest) := f text
  let (next, rest) := g rest
  (front ++ next, rest)

def spanSign : Span
  | [] => ([], [])
  | c :: rest => if c == '-' || c == '+' then ([c], rest) else ([], c :: rest)

def spanDigits : Span := Text.spanDigits

/-- A point and all digits after it. -/
def spanFraction : Span
  | '.' :: rest => ('.' :: (spanDigits rest).1, (spanDigits rest).2)
  | rest => ([], rest)

/-- A letter for the exponent, if a whole number comes after it. -/
def spanExponent : Span
  | [] => ([], [])
  | e :: rest =>
    let (exponent, after) := spanSign.andThen spanDigits rest
    if (e == 'e' || e == 'E') && exponent.any Char.isDigit then (e :: exponent, after) else ([], e :: rest)

/-- Everything of a number before its exponent. -/
def spanMantissa : Span := (spanSign.andThen spanDigits).andThen spanFraction

/-- The longest number in front, and what follows it. -/
def number? (text : List Char) : Option (List Char × List Char) :=
  if (spanMantissa text).1.any Char.isDigit then some (spanMantissa.andThen spanExponent text) else none

/-- A split text is the front and what follows it. -/
def Span.Splits (f : Span) : Prop := ∀ text, (f text).1 ++ (f text).2 = text

variable {f g : Span} {text front next rest after : List Char} {c : Char}

theorem Span.Splits.andThen (hf : f.Splits) (hg : g.Splits) : (f.andThen g).Splits := by
  intro text
  show ((f text).1 ++ (g (f text).2).1) ++ (g (f text).2).2 = text
  rw [List.append_assoc, hg, hf]

theorem splits_spanSign : spanSign.Splits := by
  intro text
  cases text with
  | nil => rfl
  | cons c rest =>
    rw [spanSign]
    split <;> rfl

theorem splits_spanDigits : spanDigits.Splits := fun _ => List.takeWhile_append_dropWhile

theorem splits_spanFraction : spanFraction.Splits := by
  intro text
  rw [spanFraction.eq_def]
  split
  · exact congrArg _ (splits_spanDigits _)
  · rfl

theorem splits_spanExponent : spanExponent.Splits := by
  intro text
  cases text with
  | nil => rfl
  | cons e rest =>
    rw [spanExponent]
    dsimp only
    split
    · exact congrArg _ (splits_spanSign.andThen splits_spanDigits rest)
    · rfl

theorem splits_spanMantissa : spanMantissa.Splits :=
  (splits_spanSign.andThen splits_spanDigits).andThen splits_spanFraction

theorem length_lt_of_number? (h : number? text = some (front, rest)) : rest.length < text.length := by
  rw [number?] at h
  split at h
  · rename_i hdigit
    have hfront : front ++ rest = text := by
      have := splits_spanMantissa.andThen splits_spanExponent text
      rwa [Option.some.inj h] at this
    have hne : 0 < (spanMantissa text).1.length := by
      obtain ⟨c, hc, -⟩ := List.any_eq_true.1 hdigit
      exact List.length_pos_of_mem hc
    have hlong : front = (spanMantissa text).1 ++ (spanExponent (spanMantissa text).2).1 :=
      congrArg Prod.fst (Option.some.inj h).symm
    rw [← hfront, List.length_append, hlong, List.length_append]
    omega
  · cases h

/-- The commands and numbers of path data. -/
def tokens? : List Char → Option (List Token)
  | [] => some []
  | c :: rest =>
    if isSeparator c then tokens? rest
    else if isCommand c then (tokens? rest).map (.command c :: ·)
    else
      match _h : number? (c :: rest) with
      | none => none
      | some (number, after) => (tokens? after).map (.number number :: ·)
termination_by text => text.length
decreasing_by
  · exact Nat.lt_succ_self _
  · exact Nat.lt_succ_self _
  · exact length_lt_of_number? _h

theorem tokens?_separator (h : isSeparator c = true) : tokens? (c :: rest) = tokens? rest := by
  rw [tokens?, if_pos h]

theorem tokens?_command (hseparator : isSeparator c = false) (h : isCommand c = true) :
    tokens? (c :: rest) = (tokens? rest).map (.command c :: ·) := by
  rw [tokens?, if_neg (by rw [hseparator]; decide), if_pos h]

theorem tokens?_number (hseparator : ∀ c ∈ text.head?, isSeparator c = false)
    (hcommand : ∀ c ∈ text.head?, isCommand c = false) (h : number? text = some (front, rest)) :
    tokens? text = (tokens? rest).map (.number front :: ·) := by
  cases text with
  | nil => cases h
  | cons c more =>
    rw [tokens?, if_neg (by rw [hseparator c rfl]; decide), if_neg (by rw [hcommand c rfl]; decide)]
    split
    · rename_i hnone
      rw [hnone] at h
      cases h
    · rename_i hsome
      rw [hsome] at h
      cases h
      rfl

theorem Span.andThen_eq (hf : f text = (front, rest)) (hg : g rest = (next, after)) :
    f.andThen g text = (front ++ next, after) := by
  rw [Span.andThen, hf]
  dsimp only
  rw [hg]

/-! ## Numerals in front -/

/-- A separator or a command is next, or nothing. -/
def EndsNumber (rest : List Char) : Prop := ∀ c ∈ rest.head?, isSeparator c = true ∨ isCommand c = true

/-- No number goes on with a separator or a command. The letters of exponents are no commands. -/
theorem not_of_endsNumber (h : isSeparator c = true ∨ isCommand c = true) :
    c.isDigit = false ∧ c ≠ '.' ∧ c ≠ '-' ∧ c ≠ 'e' ∧ c ≠ 'E' := by
  rcases h with h | h
  · simp only [isSeparator, Char.isWhitespace, Bool.or_eq_true, decide_eq_true_eq, beq_iff_eq] at h
    rcases h with rfl | ((rfl | rfl) | rfl) | rfl <;> decide
  · have hall : commandLetters.all (fun c => decide (c.isDigit = false ∧ c ≠ '.' ∧ c ≠ '-' ∧ c ≠ 'e' ∧ c ≠ 'E')) :=
      by decide
    exact of_decide_eq_true (List.all_eq_true.1 hall c (List.contains_iff_mem.1 h))

section

variable (n : Numeral) (hrest : EndsNumber rest)

theorem spanSign_append : spanSign (Numeral.sign n.negative ++ (n.whole ++ rest)) =
    (Numeral.sign n.negative, n.whole ++ rest) := by
  cases n.negative with
  | true => rfl
  | false =>
    obtain ⟨d, digits, hdigits⟩ := List.exists_cons_of_ne_nil n.whole_ne_nil
    have hd : d.isDigit = true := n.whole_digits d (hdigits ▸ List.mem_cons_self)
    have hsign : ¬ (d == '-' || d == '+') = true := by
      intro h
      rcases Bool.or_eq_true _ _ ▸ h with h | h <;> rw [eq_of_beq h] at hd <;> cases hd
    rw [hdigits]
    exact if_neg hsign

include hrest

theorem not_isDigit_head_append : ∀ c ∈ (Numeral.pointed n.fraction ++ rest).head?, c.isDigit = false := by
  cases hfraction : n.fraction with
  | nil => exact fun c hc => (not_of_endsNumber (hrest c hc)).1
  | cons d digits =>
    rintro c ⟨⟩
    rfl

theorem spanFraction_append :
    spanFraction (Numeral.pointed n.fraction ++ rest) = (Numeral.pointed n.fraction, rest) := by
  by_cases hfraction : n.fraction = []
  · rw [hfraction, Numeral.pointed, List.nil_append, spanFraction.eq_def]
    split
    · exact absurd rfl (not_of_endsNumber (hrest '.' rfl)).2.1
    · rfl
  · obtain ⟨htake, hdrop⟩ := Text.takeWhile_append n.fraction_digits fun c hc => (not_of_endsNumber (hrest c hc)).1
    rw [Numeral.pointed_of_ne_nil hfraction, List.cons_append, spanFraction, spanDigits, Text.spanDigits]
    dsimp only
    rw [htake, hdrop]

theorem spanExponent_of_endsNumber : spanExponent rest = ([], rest) := by
  cases rest with
  | nil => rfl
  | cons e more =>
    obtain ⟨-, -, -, hlower, hupper⟩ := not_of_endsNumber (hrest e rfl)
    simp [spanExponent, hlower, hupper]

theorem spanMantissa_append : spanMantissa (n.chars ++ rest) = (n.chars, rest) := by
  obtain ⟨htake, hdrop⟩ := Text.takeWhile_append n.whole_digits (not_isDigit_head_append n hrest)
  have hdigits : spanDigits (n.whole ++ (Numeral.pointed n.fraction ++ rest)) =
      (n.whole, Numeral.pointed n.fraction ++ rest) := Prod.ext htake hdrop
  rw [Numeral.chars, List.append_assoc, List.append_assoc]
  have := Span.andThen_eq (Span.andThen_eq (spanSign_append n) hdigits) (spanFraction_append n hrest)
  rwa [List.append_assoc] at this

theorem number?_append : number? (n.chars ++ rest) = some (n.chars, rest) := by
  have hmantissa := spanMantissa_append n hrest
  have hdigit : n.chars.any Char.isDigit = true := by
    obtain ⟨d, hd⟩ := List.exists_mem_of_ne_nil _ n.whole_ne_nil
    exact List.any_eq_true.2 ⟨d, List.mem_append_right _ (List.mem_append_left _ hd), n.whole_digits d hd⟩
  rw [number?, Span.andThen_eq hmantissa (spanExponent_of_endsNumber hrest), hmantissa, if_pos hdigit, List.append_nil]

/-- A numeral is a token of its own in front of a separator, a command or the end. -/
theorem tokens?_numeral : tokens? (n.chars ++ rest) = (tokens? rest).map (.number n.chars :: ·) := by
  have hhead : ∀ c ∈ (n.chars ++ rest).head?, c.isDigit = true ∨ c = '-' := by
    rw [Numeral.chars, List.append_assoc]
    cases n.negative with
    | true =>
      rintro c ⟨⟩
      exact .inr rfl
    | false =>
      intro c hc
      exact .inl (n.isDigit_head_whole c (by rwa [List.append_assoc] at hc))
  have hneither : ∀ c ∈ (n.chars ++ rest).head?, ¬ (isSeparator c = true ∨ isCommand c = true) := by
    intro c hc h
    obtain ⟨hdigit, -, hminus, -⟩ := not_of_endsNumber h
    rcases hhead c hc with h | h
    · rw [hdigit] at h
      cases h
    · exact hminus h
  exact tokens?_number (fun c hc => Bool.eq_false_iff.2 fun h => hneither c hc (.inl h))
    (fun c hc => Bool.eq_false_iff.2 fun h => hneither c hc (.inr h)) (number?_append n hrest)

end

/-! ## Paths -/

/-- Numerals with commas between them are a token each. -/
theorem tokens?_intercalate {texts : List (List Char)} (h : ∀ text ∈ texts, ∃ n : Numeral, n.chars = text)
    (hrest : EndsNumber rest) :
    tokens? ([','].intercalate texts ++ rest) = (tokens? rest).map (texts.map .number ++ ·) := by
  induction texts with
  | nil => exact Option.map_id'.symm
  | cons text texts ih =>
    obtain ⟨⟨n, rfl⟩, htexts⟩ := List.forall_mem_cons.1 h
    cases texts with
    | nil =>
      rw [List.intercalate_singleton]
      exact tokens?_numeral n hrest
    | cons next texts =>
      have hcomma : ∀ c ∈ (',' :: ([','].intercalate (next :: texts) ++ rest)).head?,
          isSeparator c = true ∨ isCommand c = true := by
        rintro c ⟨⟩
        exact .inl rfl
      rw [List.intercalate_cons_cons, List.append_assoc, List.append_assoc, List.singleton_append,
        tokens?_numeral n hcomma, tokens?_separator rfl, ih htexts, Option.map_map]
      rfl

end PathData

variable {α : Type} [Scalar α]

open PathData

namespace PathCommand

/-- What the command is called in path data. -/
def letter : PathCommand α → Char
  | .moveTo _ => 'M'
  | .lineTo _ => 'L'
  | .cubicTo .. => 'C'

def coordinates : PathCommand α → List α
  | .moveTo p | .lineTo p => [p.x, p.y]
  | .cubicTo a b p => [a.x, a.y, b.x, b.y, p.x, p.y]

/-- The letter and the text of each coordinate. -/
def tokens (command : PathCommand α) : List Token :=
  .command command.letter :: command.coordinates.map fun v => .number (Coordinate.text v).toList

theorem toList_commandText (command : PathCommand α) : (Path.commandText command).toList =
    command.letter :: [','].intercalate (command.coordinates.map fun v => (Coordinate.text v).toList) := by
  cases command <;>
    simp [Path.commandText, Point.text, letter, coordinates, List.intercalate_cons_cons, List.intercalate_singleton]

theorem tokens?_commandText {command : PathCommand α} {rest : List Char}
    (h : ∀ v ∈ command.coordinates, ∃ n : Numeral, n.chars = (Coordinate.text v).toList) (hrest : EndsNumber rest) :
    tokens? ((Path.commandText command).toList ++ rest) = (tokens? rest).map (command.tokens ++ ·) := by
  have hletter : isSeparator command.letter = false ∧ isCommand command.letter = true := by
    cases command <;> exact ⟨rfl, rfl⟩
  rw [toList_commandText, List.cons_append, tokens?_command hletter.1 hletter.2,
    tokens?_intercalate (List.forall_mem_map.2 h) hrest, Option.map_map, List.map_map]
  rfl

end PathCommand

namespace Path

def coordinates (path : Path α) : List α := path.commands.flatMap PathCommand.coordinates

/-- If all coordinates are numerals, a path's text has the tokens of its commands. -/
theorem tokens?_text {path : Path α}
    (h : ∀ v ∈ path.coordinates, ∃ n : Numeral, n.chars = (Coordinate.text v).toList) :
    tokens? path.text.toList = some (path.commands.flatMap PathCommand.tokens) := by
  obtain ⟨commands⟩ := path
  rw [text, String.toList_join, List.flatMap_map]
  induction commands with
  | nil => rw [List.flatMap_nil, tokens?, List.flatMap_nil]
  | cons command commands ih =>
    have hends : EndsNumber (commands.flatMap fun command => (commandText command).toList) := by
      cases commands with
      | nil => rintro c ⟨⟩
      | cons next commands =>
        rw [List.flatMap_cons, PathCommand.toList_commandText]
        rintro c ⟨⟩
        cases next <;> exact .inr rfl
    rw [coordinates, List.flatMap_cons, List.forall_mem_append] at h
    rw [List.flatMap_cons, PathCommand.tokens?_commandText h.1 hends, ih h.2, List.flatMap_cons]
    rfl

end Path

namespace Coordinate

/-- **Coordinates are printed canonically.** A numeral with two places, as any finite float is written with, becomes
one of the same number and the same digits before the point, with nothing that could be left out; finite floats
become alike if they are of one number with two places. In path data the scanner takes a compact numeral for one
number, whatever separator or command follows it, and reads a path's text as its commands and coordinates. -/
theorem text_canonical :
    (∀ n : Numeral, n.fraction.length = 2 →
      Canonical n.chars (compact n.chars) ∧
      ∀ rest, EndsNumber rest →
        tokens? (compact n.chars ++ rest) = (tokens? rest).map (.number (compact n.chars) :: ·)) ∧
    (∀ x : Float, x.isFinite = true → ∃ n : Numeral,
      n.chars = (fixed 2 x).toList ∧ n.fraction.length = 2 ∧ (text x).toList = compact n.chars) ∧
    (∀ x y : Float, x.isFinite = true → y.isFinite = true →
      (text x = text y ↔ valueOf? (fixed 2 x).toList = valueOf? (fixed 2 y).toList)) ∧
    ∀ path : Path Float, (∀ v ∈ path.coordinates, v.isFinite = true) →
      tokens? path.text.toList = some (path.commands.flatMap PathCommand.tokens) := by
  have hne : ∀ {n : Numeral}, n.fraction.length = 2 → n.fraction ≠ [] := fun h =>
    List.ne_nil_of_length_pos (h ▸ Nat.succ_pos 1)
  have hprinted : ∀ x : Float, x.isFinite = true → ∃ n : Numeral,
      n.chars = (fixed 2 x).toList ∧ n.fraction.length = 2 ∧ (text x).toList = compact n.chars := by
    intro x hx
    obtain ⟨n, hchars, hlength⟩ := exists_numeral hx
    refine ⟨n, hchars, hlength, ?_⟩
    rw [hchars]
    exact String.toList_ofList
  refine ⟨fun n hlength => ⟨compact_canonical n (hne hlength), fun rest hrest => ?_⟩, hprinted,
    fun x y hx hy => text_eq_iff hx hy, fun path hfinite => Path.tokens?_text fun v hv => ?_⟩
  · obtain ⟨m, hchars, -⟩ := compact_chars n (hne hlength)
    rw [hchars]
    exact tokens?_numeral m hrest
  · obtain ⟨n, -, hlength, htext⟩ := hprinted v (hfinite v hv)
    obtain ⟨m, hchars, -⟩ := compact_chars n (hne hlength)
    exact ⟨m, hchars.symm.trans htext.symm⟩

/-- Three coordinates that lose a minus, both zeros and one zero, in a path and in front of another one. -/
theorem text_canonical_hundred :
    let n : Numeral := ⟨true, ['2', '0'], ['5', '0'], by decide, by simp, by simp⟩
    let rest := [',', '1', 'Z']
    let path : Path Float := ⟨[.moveTo ⟨-0.001, 100⟩, .lineTo ⟨0, -20.5⟩]⟩
    compact n.chars = ['-', '2', '0', '.', '5'] ∧ Canonical n.chars (compact n.chars) ∧
      tokens? (compact n.chars ++ rest) = (tokens? rest).map (.number (compact n.chars) :: ·) ∧
      text (-0.001 : Float) = text (0 : Float) ∧
      path.text = "M0,100L0,-20.5" ∧
      tokens? path.text.toList = some [.command 'M', .number ['0'], .number ['1', '0', '0'],
        .command 'L', .number ['0'], .number ['-', '2', '0', '.', '5']] := by
  intro n rest path
  have hnear : (-0.001 : Float).isFinite = true := by decide +kernel
  have hzero : (0 : Float).isFinite = true := by decide +kernel
  have hhundred : (100 : Float).isFinite = true := by decide +kernel
  have hnegative : (-20.5 : Float).isFinite = true := by decide +kernel
  have hsame : valueOf? (fixed 2 (-0.001)).toList = valueOf? (fixed 2 0).toList := by decide +kernel
  have hfinite : ∀ v ∈ path.coordinates, v.isFinite = true := by
    rintro v (_ | ⟨_, _ | ⟨_, _ | ⟨_, _ | ⟨_, ⟨⟩⟩⟩⟩⟩)
    exacts [hnear, hhundred, hzero, hnegative]
  have hrest : EndsNumber rest := by
    rintro c ⟨⟩
    exact .inl rfl
  obtain ⟨hcompact, -, halike, hpath⟩ := text_canonical
  obtain ⟨hcanonical, hsplit⟩ := hcompact n rfl
  refine ⟨by decide, hcanonical, hsplit rest hrest, (halike _ _ hnear hzero).2 hsame, by decide +kernel, ?_⟩
  rw [hpath path hfinite]
  decide +kernel

end Coordinate

end QueueBoard
