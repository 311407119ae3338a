import QueueBoard.Proofs.Json.Sorted
import QueueBoard.Proofs.Scalar.Finite
/-!
# Numbers that are read

A number is read the same in front of anything that does not go on with it (`readNumber_append`). Every number
of a value that was read is finite (`parse_finite`): a reader takes no number beyond the range of floats, and
the whole numbers it keeps as they are have few enough digits.
-/

namespace QueueBoard.Json

open Floating
open Text (spanDigits)

/-- The number of a sign, the digits of its whole part and of its fraction, and an exponent. -/
def numberOf (negative : Bool) (whole : List Char) :
    Option (List Char) → Option (Bool × List Char) → Option Number
  | none, none => wholeNumber negative (Decimal.digitsOnto 0 whole)
  | fraction, exponent =>
    let digits := fraction.getD []
    let power : Int :=
      match exponent with
      | none => 0
      | some (true, e) => -(Decimal.digitsOnto 0 e : Int)
      | some (false, e) => Decimal.digitsOnto 0 e
    decimalNumber negative (Decimal.digitsOnto (Decimal.digitsOnto 0 whole) digits) (power - digits.length)

/-- The parts of a number are read one after the other. -/
theorem readNumber_eq (negative : Bool) (text : List Char) : readNumber negative text =
    (readWhole text).bind fun w => (readFraction w.2).bind fun f => (readExponent f.2).bind fun e =>
      (numberOf negative w.1 f.1 e.1).map fun n => (n, e.2) := by
  rw [readNumber]
  cases readWhole text with
  | none => rfl
  | some w =>
    show (readFraction w.2).bind _ = (readFraction w.2).bind _
    cases readFraction w.2 with
    | none => rfl
    | some f =>
      show (readExponent f.2).bind _ = (readExponent f.2).bind _
      cases readExponent f.2 with
      | none => rfl
      | some e =>
        obtain ⟨fraction, afterFraction⟩ := f
        obtain ⟨exponent, afterExponent⟩ := e
        rw [Option.bind_some, Option.bind_some, Option.map_eq_bind]
        cases fraction <;> cases exponent <;> rfl

theorem readNumber_eq_some_iff {negative : Bool} {text rest : List Char} {n : Number} :
    readNumber negative text = some (n, rest) ↔
      ∃ whole afterWhole fraction afterFraction exponent, readWhole text = some (whole, afterWhole) ∧
        readFraction afterWhole = some (fraction, afterFraction) ∧
        readExponent afterFraction = some (exponent, rest) ∧
        numberOf negative whole fraction exponent = some n := by
  rw [readNumber_eq]
  simp only [Option.bind_eq_some_iff, Option.map_eq_some_iff, Prod.exists, Prod.mk.injEq]
  constructor
  · rintro ⟨whole, afterWhole, hwhole, fraction, afterFraction, hfraction, exponent, after, hexponent, n, hn,
      rfl, rfl⟩
    exact ⟨whole, afterWhole, fraction, afterFraction, exponent, hwhole, hfraction, hexponent, hn⟩
  · rintro ⟨whole, afterWhole, fraction, afterFraction, exponent, hwhole, hfraction, hexponent, hn⟩
    exact ⟨whole, afterWhole, hwhole, fraction, afterFraction, hfraction, exponent, rest, hexponent, n, hn, rfl,
      rfl⟩

/-! ## What follows a number -/

/-- Nothing more, or a character that no number goes on with. -/
def Ends (rest : List Char) : Prop := ∀ c ∈ rest.head?, c.isDigit = false ∧ c ≠ '.' ∧ c ≠ 'e' ∧ c ≠ 'E'

section Parts

variable {text after rest : List Char}

theorem spanDigits_append (hrest : ∀ c ∈ rest.head?, c.isDigit = false) (text : List Char) :
    spanDigits (text ++ rest) = ((spanDigits text).1, (spanDigits text).2 ++ rest) := by
  induction text with
  | nil =>
    cases rest with
    | nil => rfl
    | cons c rest => simp [spanDigits, hrest c rfl]
  | cons c text ih =>
    by_cases hc : c.isDigit = true
    · simp only [spanDigits, Prod.mk.injEq] at ih
      simp [spanDigits, hc, ih]
    · simp [spanDigits, hc]

theorem readWhole_append {whole : List Char} (h : readWhole text = some (whole, after)) (hrest : Ends rest) :
    readWhole (text ++ rest) = some (whole, after ++ rest) := by
  rw [readWhole] at h ⊢
  rw [spanDigits_append fun c hc => (hrest c hc).1]
  generalize spanDigits text = found at *
  obtain ⟨digits, more⟩ := found
  dsimp only at *
  split at h
  · cases h
  · cases h
  · rename_i hempty hzero
    cases h
    split
    · rename_i heq
      cases heq
      exact absurd rfl (hempty _)
    · rename_i heq
      cases heq
      exact absurd rfl (hzero _ _ _)
    · rfl

theorem readFraction_append {fraction : Option (List Char)} (h : readFraction text = some (fraction, after))
    (hrest : Ends rest) : readFraction (text ++ rest) = some (fraction, after ++ rest) := by
  rw [readFraction.eq_def] at h
  split at h
  · rw [List.cons_append, readFraction, spanDigits_append fun c hc => (hrest c hc).1]
    split at h
    · cases h
    · rename_i digits more hne hdigits
      cases h
      rw [hdigits]
      cases digits with
      | nil => exact (hne rfl).elim
      | cons d digits => rfl
  · rename_i hpoint
    cases h
    rw [readFraction.eq_def]
    split
    · rename_i more heq
      cases text with
      | nil =>
        obtain ⟨-, hne, -⟩ := hrest '.' (by rw [show rest = '.' :: more from heq]; rfl)
        exact absurd rfl hne
      | cons c text =>
        cases heq
        exact absurd rfl (hpoint _)
    · rfl

/-- The sign of an exponent, and what follows it. -/
def signOf : List Char → Bool × List Char
  | '+' :: rest => (false, rest)
  | '-' :: rest => (true, rest)
  | rest => (false, rest)

theorem signOf_append (hne : text ≠ []) :
    signOf (text ++ rest) = ((signOf text).1, (signOf text).2 ++ rest) := by
  obtain ⟨c, text, rfl⟩ := List.exists_cons_of_ne_nil hne
  rw [signOf.eq_def (c :: text), signOf.eq_def (c :: text ++ rest)]
  split
  · rename_i heq
    cases heq
    rfl
  · rename_i heq
    cases heq
    rfl
  · rename_i hplus hminus
    split
    · rename_i heq
      cases heq
      exact absurd rfl (hplus _)
    · rename_i heq
      cases heq
      exact absurd rfl (hminus _)
    · rfl

theorem readExponent_cons (e : Char) (rest : List Char) : readExponent (e :: rest) =
    if e == 'e' || e == 'E' then
      match spanDigits (signOf rest).2 with
      | ([], _) => none
      | (digits, more) => some (some ((signOf rest).1, digits), more)
    else some (none, e :: rest) := rfl

theorem readExponent_append {exponent : Option (Bool × List Char)}
    (h : readExponent text = some (exponent, after)) (hrest : Ends rest) :
    readExponent (text ++ rest) = some (exponent, after ++ rest) := by
  cases text with
  | nil =>
    cases h
    cases rest with
    | nil => rfl
    | cons c rest =>
      obtain ⟨-, -, hlower, hupper⟩ := hrest c rfl
      rw [List.nil_append, readExponent_cons, if_neg (by simp [hlower, hupper])]
  | cons c text =>
    by_cases hmark : (c == 'e' || c == 'E') = true
    · rw [readExponent_cons, if_pos hmark] at h
      have hne : text ≠ [] := by
        rintro rfl
        cases h
      rw [List.cons_append, readExponent_cons, if_pos hmark, signOf_append hne,
        spanDigits_append fun c hc => (hrest c hc).1]
      split at h
      · cases h
      · rename_i digits more hempty hdigits
        cases h
        rw [hdigits]
        cases digits with
        | nil => exact (hempty rfl).elim
        | cons d digits => rfl
    · rw [readExponent_cons, if_neg hmark] at h
      cases h
      rw [List.cons_append, readExponent_cons, if_neg hmark]

/-- A number is read the same in front of anything that does not go on with it. -/
theorem readNumber_append {negative : Bool} {n : Number} (h : readNumber negative text = some (n, after))
    (hrest : Ends rest) : readNumber negative (text ++ rest) = some (n, after ++ rest) := by
  obtain ⟨whole, afterWhole, fraction, afterFraction, exponent, hwhole, hfraction, hexponent, hn⟩ :=
    readNumber_eq_some_iff.1 h
  exact readNumber_eq_some_iff.2 ⟨whole, _, fraction, _, exponent, readWhole_append hwhole hrest,
    readFraction_append hfraction hrest, readExponent_append hexponent hrest, hn⟩

end Parts

/-! ## Finite numbers -/

/-- Every number inside is as `P` says. -/
inductive Numbers (P : Number → Prop) : Json → Prop
  | null : Numbers P .null
  | boolean (b : Bool) : Numbers P (.boolean b)
  | number {n : Number} : P n → Numbers P (.number n)
  | string (s : String) : Numbers P (.string s)
  | array {items : List Json} : (∀ item ∈ items, Numbers P item) → Numbers P (.array items)
  | object {members : List (String × Json)} : (∀ m ∈ members, Numbers P m.2) → Numbers P (.object members)

theorem wholeNumber_finite {x : Float} {n : Number} (h : wholeNumber.finite x = some n) :
    n.toFloat.isFinite = true := by
  rw [wholeNumber.finite] at h
  split at h
  · cases h
    assumption
  · cases h

theorem wholeNumber_isFinite {negative : Bool} {m : Nat} {n : Number} (h : wholeNumber negative m = some n) :
    n.toFloat.isFinite = true := by
  rw [wholeNumber] at h
  split at h
  · split at h
    · exact wholeNumber_finite h
    · rename_i hm
      cases h
      have hle : m ≤ 2 ^ 63 := Nat.not_lt.1 fun hlt => hm (Or.inr hlt)
      exact isFinite_neg (isFinite_ofNat (by omega))
  · split at h
    · rename_i hm
      cases h
      exact isFinite_ofNat hm
    · exact wholeNumber_finite h

theorem decimalNumber_isFinite {negative : Bool} {m : Nat} {e : Int} {n : Number}
    (h : decimalNumber negative m e = some n) : n.toFloat.isFinite = true := by
  rw [decimalNumber] at h
  split at h
  · rename_i hx
    cases h
    cases negative
    · exact hx
    · exact isFinite_neg hx
  · cases h

theorem numberOf_isFinite {negative : Bool} {whole : List Char} {fraction : Option (List Char)}
    {exponent : Option (Bool × List Char)} {n : Number}
    (h : numberOf negative whole fraction exponent = some n) :
    n.toFloat.isFinite = true := by
  cases fraction with
  | none =>
    cases exponent with
    | none => exact wholeNumber_isFinite h
    | some e => exact decimalNumber_isFinite h
  | some digits => exact decimalNumber_isFinite h

/-- **Every number of a value that was read is finite.** -/
theorem parse_finite {text : String} {value : Json} (h : parse text = some value) :
    Numbers (fun n => n.toFloat.isFinite = true) value := by
  refine parse_induction .null .boolean .string ?_ (fun _ => .array)
    (fun _ hmembers => .object fun m hm => hmembers m (mem_sortMembers hm)) h
  intro negative text n rest hn
  obtain ⟨whole, -, fraction, -, exponent, -, -, -, hn⟩ := readNumber_eq_some_iff.1 hn
  exact .number (numberOf_isFinite hn)

end QueueBoard.Json
