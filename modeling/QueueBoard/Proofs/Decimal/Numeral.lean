import Mathlib.Data.Rat.Defs
import QueueBoard.Proofs.Decimal.Digits
import QueueBoard.Proofs.Scalar.Finite
import QueueBoard.Proofs.Text.Splitting
import QueueBoard.Scalar.Float
/-!
# Numerals and what they denote

A numeral is read as a rational number (`Numeral.valueOf?_chars`). Texts with a fixed number of places are
numerals with as many digits after the point (`Numeral.exists_placed`), and a finite float has such a text
(`Floating.exists_fixed`).
-/

namespace QueueBoard

open Decimal

namespace Decimal

/-- The number with the given sign and digits, the last `places` of which are after the point. -/
def valueOfDigits (negative : Bool) (digits : List Char) (places : ℕ) : ℚ :=
  (if negative then -1 else 1) * (Nat.ofDigitChars 10 digits 0 / 10 ^ places)

/-- The digits after a point, of which there is at least one; no point is needed. -/
def fraction? : List Char → Option (List Char)
  | [] => some []
  | '.' :: digits => if digits ≠ [] ∧ digits.all Char.isDigit then some digits else none
  | _ => none

/-- The digits before the point. -/
def wholeDigits (text : List Char) : List Char := (takeSign text).2.takeWhile Char.isDigit

/-- The number that a text denotes. -/
def valueOf? (text : List Char) : Option ℚ :=
  if wholeDigits text = [] then none
  else
    let (negative, unsigned) := takeSign text
    (fraction? (unsigned.dropWhile Char.isDigit)).map fun fraction =>
      valueOfDigits negative (wholeDigits text ++ fraction) fraction.length

end Decimal

/-- A decimal number in writing: digits, and digits after a point if there are any. -/
structure Numeral where
  negative : Bool
  whole : List Char
  fraction : List Char
  whole_ne_nil : whole ≠ []
  whole_digits : ∀ c ∈ whole, c.isDigit = true
  fraction_digits : ∀ c ∈ fraction, c.isDigit = true

namespace Numeral

/-- A point and the digits after it. -/
def pointed : List Char → List Char
  | [] => []
  | digits => '.' :: digits

/-- The minus of a negative number. -/
def sign (negative : Bool) : List Char := if negative then ['-'] else []

def chars (n : Numeral) : List Char := sign n.negative ++ (n.whole ++ pointed n.fraction)

/-- The number that the numeral is written for. -/
def value (n : Numeral) : ℚ := valueOfDigits n.negative (n.whole ++ n.fraction) n.fraction.length

variable (n : Numeral) {digits rest : List Char}

/-! ## Reading -/

theorem pointed_of_ne_nil (h : digits ≠ []) : pointed digits = '.' :: digits := by
  cases digits with
  | nil => exact absurd rfl h
  | cons d digits => rfl

theorem not_isDigit_head_pointed : ∀ c ∈ (pointed digits).head?, c.isDigit = false := by
  cases digits with
  | nil => rintro c ⟨⟩
  | cons d digits =>
    rintro c ⟨⟩
    rfl

theorem fraction?_pointed (h : ∀ c ∈ digits, c.isDigit = true) : fraction? (pointed digits) = some digits := by
  cases digits with
  | nil => rfl
  | cons d digits => exact if_pos ⟨List.cons_ne_nil _ _, List.all_eq_true.2 h⟩

theorem isDigit_head_whole : ∀ c ∈ (n.whole ++ rest).head?, c.isDigit = true := by
  intro c hc
  rw [List.head?_append_of_ne_nil _ n.whole_ne_nil] at hc
  exact n.whole_digits c (List.mem_of_mem_head? hc)

theorem takeSign_chars : takeSign n.chars = (n.negative, n.whole ++ pointed n.fraction) :=
  takeSign_digits n.isDigit_head_whole n.negative

theorem wholeDigits_chars : wholeDigits n.chars = n.whole := by
  rw [wholeDigits, takeSign_chars]
  exact (Text.takeWhile_append n.whole_digits not_isDigit_head_pointed).1

theorem valueOf?_chars : valueOf? n.chars = some n.value := by
  have hrest : (n.whole ++ pointed n.fraction).dropWhile Char.isDigit = pointed n.fraction :=
    (Text.takeWhile_append n.whole_digits not_isDigit_head_pointed).2
  rw [valueOf?, takeSign_chars, wholeDigits_chars, if_neg n.whole_ne_nil]
  dsimp only
  rw [hrest, fraction?_pointed n.fraction_digits]
  rfl

/-! ## Writing with a fixed number of places -/

/-- The numeral of a sign and a number of the least parts that there are places for. -/
theorem exists_placed (negative : Bool) (k : ℕ) {places : ℕ} (hplaces : 0 < places) :
    ∃ n : Numeral, n.chars = sign negative ++ (placed k places).toList ∧ n.fraction.length = places ∧
      n.value = (if negative then -1 else 1) * (k / 10 ^ places) := by
  -- with the zeros filled in there is at least one digit more than places
  obtain ⟨zeros, hzeros⟩ : ∃ zeros, zeros = places + 1 - (Nat.toDigits 10 k).length := ⟨_, rfl⟩
  obtain ⟨digits, hdigits⟩ : ∃ digits, digits = List.replicate zeros '0' ++ Nat.toDigits 10 k := ⟨_, rfl⟩
  have hlong : places < digits.length := by
    rw [hdigits, List.length_append, List.length_replicate]
    omega
  have hall : ∀ c ∈ digits, c.isDigit = true := by
    rw [hdigits, List.forall_mem_append]
    refine ⟨fun c hc => ?_, fun c hc => Nat.isDigit_of_mem_toDigits (by decide) (by decide) hc⟩
    rw [List.eq_of_mem_replicate hc]
    rfl
  have hvalue : Nat.ofDigitChars 10 digits 0 = k := by
    rw [hdigits, Nat.ofDigitChars_append, Nat.ofDigitChars_replicate_zero, Nat.mul_zero, Nat.ofDigitChars_ten_toDigits]
  have hfraction : (digits.drop (digits.length - places)).length = places := by
    rw [List.length_drop]
    omega
  refine ⟨⟨negative, digits.take (digits.length - places), digits.drop (digits.length - places), ?_,
    fun c hc => hall c (List.mem_of_mem_take hc), fun c hc => hall c (List.mem_of_mem_drop hc)⟩, ?_, hfraction, ?_⟩
  · refine List.ne_nil_of_length_pos ?_
    rw [List.length_take]
    omega
  · have hpointed := pointed_of_ne_nil (List.ne_nil_of_length_pos (hfraction ▸ hplaces))
    have hnone : ¬ (places == 0) = true := by simpa using hplaces.ne'
    rw [chars, hpointed, placed, ← hzeros, ← hdigits, if_neg hnone, String.toList_ofList]
  · rw [value, valueOfDigits, List.take_append_drop, hvalue, hfraction]

end Numeral

namespace Floating

theorem parts_of_isFinite {x : Float} (h : x.isFinite = true) :
    ∃ negative mantissa exponent, Parts.of x = .finite negative mantissa exponent := by
  have hfield : x.toBits.toNat / Nat.pow 2 fractionBits % Nat.pow 2 11 < 2047 := by
    have := exponent_lt_of_isFinite h
    rw [Float.Model.UnpackedFloat.unpackExponent, BitVec.toNat_cast, BitVec.extractLsb_toNat, Nat.shiftRight_eq_div_pow]
      at this
    exact this
  rw [Parts.of, Parts.ofBits, if_neg (by simpa using hfield.ne)]
  split <;> exact ⟨_, _, _, rfl⟩

/-- A finite float is rounded to the places that are written. -/
theorem exists_fixed {x : Float} (h : x.isFinite = true) (places : ℕ) :
    ∃ negative k, (fixed places x).toList = Numeral.sign negative ++ (placed k places).toList := by
  obtain ⟨negative, mantissa, exponent, hparts⟩ := parts_of_isFinite h
  let f := Fraction.ofBinary mantissa exponent
  refine ⟨negative, roundHalfEven (f.num * Nat.pow 10 places) f.den, ?_⟩
  rw [fixed, hparts]
  cases negative with
  | true => exact String.toList_append
  | false => exact String.toList_append

end Floating

end QueueBoard
