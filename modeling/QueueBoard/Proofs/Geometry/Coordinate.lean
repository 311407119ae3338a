import Mathlib.Data.List.DropRight
import Mathlib.Tactic.FieldSimp
import Mathlib.Tactic.Linarith
import QueueBoard.Geometry.Point
import QueueBoard.Proofs.Decimal.Numeral
/-!
# Compact coordinates

A numeral loses the zeros at its end, a point that nothing follows and a minus before zero. What is left is a numeral
of the same number (`Coordinate.compact_chars`), and of all texts with the same places only those of one number become
alike (`Coordinate.text_eq_iff`).
-/

namespace QueueBoard

open Decimal

/-- A text in place of another one: the same number, and nothing in it that could be left out. -/
structure Canonical (text printed : List Char) : Prop where
  denotes : ∃ q, valueOf? text = some q ∧ valueOf? printed = some q
  no_zero : '.' ∈ printed → printed.getLast? ≠ some '0'
  no_point : printed.getLast? ≠ some '.'
  proper : printed ∉ [[], ['-'], ['-', '0']]
  whole : wholeDigits printed = wholeDigits text

namespace Coordinate

variable {c d : Char} {text front back : List Char}

/-! ## Dropping from the end -/

theorem dropTrailing_eq_self (h : text.getLast? ≠ some c) : dropTrailing c text = text := by
  refine List.rdropWhile_eq_self_iff.2 fun hne hlast => h ?_
  rw [List.getLast?_eq_some_getLast hne, eq_of_beq hlast]

theorem getLast?_dropTrailing_ne : (dropTrailing c text).getLast? ≠ some c := by
  intro h
  obtain ⟨hne, hlast⟩ := List.mem_getLast?_eq_getLast h
  exact List.rdropWhile_last_not (· == c) text hne (beq_iff_eq.2 hlast.symm)

/-- What is dropped does not reach beyond a character that stays. -/
theorem dropTrailing_append_cons (h : d ≠ c) :
    dropTrailing c (front ++ d :: back) = front ++ d :: dropTrailing c back := by
  have hd : ¬ (d == c) = true := by simpa using h
  rw [dropTrailing, dropTrailing, List.reverse_append, List.reverse_cons, List.append_assoc, List.dropWhile_append]
  split
  · rename_i hempty
    rw [List.isEmpty_iff.1 hempty, List.singleton_append, List.dropWhile_cons_of_neg (by exact hd), List.reverse_cons,
      List.reverse_reverse, List.reverse_nil]
  · rw [List.reverse_append, List.reverse_append, List.reverse_reverse, List.reverse_singleton, List.append_assoc,
      List.singleton_append]

end Coordinate

namespace Numeral

open Coordinate

variable (n : Numeral)

/-- The numeral without the zeros at its end that are after the point. -/
def trimmed : Numeral :=
  { n with
    fraction := dropTrailing '0' n.fraction
    fraction_digits := fun c hc => n.fraction_digits c ((List.rdropWhile_prefix _ _).subset hc) }

theorem getLast?_ne_point {digits : List Char} (h : ∀ c ∈ digits, c.isDigit = true) : digits.getLast? ≠ some '.' :=
  fun hlast => absurd (h '.' (List.mem_of_getLast? hlast)) (by decide)

theorem getLast?_chars_of_nil (h : n.fraction = []) : n.chars.getLast? = n.whole.getLast? := by
  rw [chars, h, pointed, List.append_nil, List.getLast?_append_of_ne_nil _ n.whole_ne_nil]

theorem getLast?_chars (h : n.fraction ≠ []) : n.chars.getLast? = n.fraction.getLast? := by
  rw [chars, pointed_of_ne_nil h, ← List.append_assoc, List.getLast?_append_of_ne_nil _ (List.cons_ne_nil _ _),
    List.getLast?_cons_of_ne_nil h]

theorem getLast?_chars_ne_point : n.chars.getLast? ≠ some '.' := by
  by_cases h : n.fraction = []
  · rw [n.getLast?_chars_of_nil h]
    exact getLast?_ne_point n.whole_digits
  · rw [n.getLast?_chars h]
    exact getLast?_ne_point n.fraction_digits

/-- Only a fraction needs a point. -/
theorem fraction_ne_nil_of_mem (h : '.' ∈ n.chars) : n.fraction ≠ [] := by
  intro hnil
  rw [chars, hnil, pointed, List.append_nil] at h
  rcases List.mem_append.1 h with hsign | hwhole
  · rw [sign] at hsign
    split at hsign <;> simp at hsign
  · exact absurd (n.whole_digits '.' hwhole) (by decide)

theorem chars_ne_of_wholeDigits {text : List Char} (h : wholeDigits text = []) : n.chars ≠ text := by
  rintro rfl
  exact n.whole_ne_nil (n.wholeDigits_chars.symm.trans h)

/-- Zeros at the end of the digits after the point count for nothing. -/
theorem value_trimmed : n.trimmed.value = n.value := by
  obtain ⟨zeros, hzeros⟩ : ∃ k, n.fraction.rtakeWhile (· == '0') = List.replicate k '0' :=
    ⟨_, List.eq_replicate_of_mem fun _ hc => eq_of_beq (List.mem_rtakeWhile_imp (p := (· == '0')) hc)⟩
  have hfraction : n.fraction = n.trimmed.fraction ++ List.replicate zeros '0' :=
    List.rdropWhile_append_rtakeWhile.symm.trans (congrArg _ hzeros)
  have hdigits : Nat.ofDigitChars 10 (n.whole ++ n.fraction) 0 =
      10 ^ zeros * Nat.ofDigitChars 10 (n.whole ++ n.trimmed.fraction) 0 := by
    rw [hfraction, ← List.append_assoc, Nat.ofDigitChars_append, Nat.ofDigitChars_replicate_zero]
  have hlength : n.fraction.length = zeros + n.trimmed.fraction.length := by
    rw [hfraction, List.length_append, List.length_replicate, Nat.add_comm]
  rw [value, value, valueOfDigits, valueOfDigits, hdigits, hlength, pow_add, Nat.cast_mul, Nat.cast_pow, Nat.cast_ofNat,
    mul_div_mul_left _ _ (pow_ne_zero zeros (by norm_num))]
  rfl

end Numeral

namespace Coordinate

variable (n : Numeral)

/-- Dropping the zeros stops at the point at the latest, so no zero before it is lost. -/
theorem dropTrailing_chars (h : n.fraction ≠ []) :
    dropTrailing '.' (dropTrailing '0' n.chars) = n.trimmed.chars := by
  have hzeros : dropTrailing '0' n.chars =
      Numeral.sign n.negative ++ n.whole ++ '.' :: dropTrailing '0' n.fraction := by
    rw [Numeral.chars, Numeral.pointed_of_ne_nil h, ← List.append_assoc, dropTrailing_append_cons (by decide)]
  by_cases hfraction : dropTrailing '0' n.fraction = []
  · have htrimmed : n.trimmed.chars = Numeral.sign n.negative ++ n.whole := by
      rw [Numeral.chars, show n.trimmed.fraction = [] from hfraction]
      exact congrArg _ (List.append_nil _)
    rw [hzeros, hfraction, ← htrimmed]
    exact (List.rdropWhile_concat_pos _ _ _ rfl).trans (dropTrailing_eq_self n.trimmed.getLast?_chars_ne_point)
  · have htrimmed : n.trimmed.chars = dropTrailing '0' n.chars := by
      rw [hzeros, Numeral.chars, Numeral.pointed_of_ne_nil (show n.trimmed.fraction ≠ [] from hfraction),
        ← List.append_assoc]
      rfl
    rw [← htrimmed]
    exact dropTrailing_eq_self n.trimmed.getLast?_chars_ne_point

/-- The numeral of zero. -/
def zero : Numeral := ⟨false, ['0'], [], List.cons_ne_nil _ _, List.forall_mem_singleton.2 rfl, List.forall_mem_nil _⟩

/-- A numeral with a point becomes one of the same number. -/
theorem compact_chars (h : n.fraction ≠ []) :
    ∃ m : Numeral, compact n.chars = m.chars ∧ m.value = n.value ∧ m.whole = n.whole ∧
      m.fraction.getLast? ≠ some '0' ∧ m.chars ≠ ['-', '0'] := by
  rw [compact, dropTrailing_chars n h]
  -- the one text that is put right afterwards is that of zero, by any sign
  by_cases hminus : n.trimmed.chars = ['-', '0']
  · have hvalue : some n.trimmed.value = some zero.value := by
      rw [← n.trimmed.valueOf?_chars, hminus]
      simp [valueOf?, zero, Numeral.value, valueOfDigits, wholeDigits, takeSign, fraction?, Nat.ofDigitChars]
    have hwhole : n.trimmed.whole = ['0'] := by
      rw [← n.trimmed.wholeDigits_chars, hminus]
      decide
    refine ⟨zero, by rw [hminus]; rfl, ?_, hwhole.symm, by decide, by decide⟩
    rw [← Option.some.inj hvalue, n.value_trimmed]
  · exact ⟨n.trimmed, if_neg (by simpa using hminus), n.value_trimmed, rfl, getLast?_dropTrailing_ne, hminus⟩

theorem compact_canonical (h : n.fraction ≠ []) : Canonical n.chars (compact n.chars) := by
  obtain ⟨m, hchars, hvalue, hwhole, hzero, hminus⟩ := compact_chars n h
  rw [hchars]
  refine ⟨⟨n.value, n.valueOf?_chars, hvalue ▸ m.valueOf?_chars⟩, fun hpoint => ?_, m.getLast?_chars_ne_point, ?_, ?_⟩
  · rwa [m.getLast?_chars (m.fraction_ne_nil_of_mem hpoint)]
  · have hempty : m.chars ≠ [] := m.chars_ne_of_wholeDigits rfl
    have hsign : m.chars ≠ ['-'] := m.chars_ne_of_wholeDigits rfl
    simp [hempty, hsign, hminus]
  · rw [m.wholeDigits_chars, n.wholeDigits_chars, hwhole]

/-! ## Texts alike -/

theorem valueOf?_compact (h : n.fraction ≠ []) : valueOf? (compact n.chars) = valueOf? n.chars := by
  obtain ⟨q, htext, hprinted⟩ := (compact_canonical n h).denotes
  rw [htext, hprinted]

/-- A text with two places is that of a sign and a number of hundredths, and the sign of zero is not printed. -/
theorem compact_placed_congr {negative negative' : Bool} {k k' : ℕ}
    (h : valueOf? (Numeral.sign negative ++ (placed k 2).toList) =
      valueOf? (Numeral.sign negative' ++ (placed k' 2).toList)) :
    compact (Numeral.sign negative ++ (placed k 2).toList) =
      compact (Numeral.sign negative' ++ (placed k' 2).toList) := by
  obtain ⟨n, hn, -, hvalue⟩ := Numeral.exists_placed negative k (Nat.succ_pos 1)
  obtain ⟨n', hn', -, hvalue'⟩ := Numeral.exists_placed negative' k' (Nat.succ_pos 1)
  rw [← hn, ← hn', n.valueOf?_chars, n'.valueOf?_chars, Option.some.injEq, hvalue, hvalue'] at h
  have hzero : ∀ negative, compact (Numeral.sign negative ++ (placed 0 2).toList) = ['0'] := by decide
  have hnonneg : (0 : ℚ) ≤ k := Nat.cast_nonneg k
  have hnonneg' : (0 : ℚ) ≤ k' := Nat.cast_nonneg k'
  -- numbers of opposite signs are equal only if both are zero, so the hundredths are the same in any case
  have hsame : (k : ℚ) = k' := by
    split_ifs at h <;> linarith
  obtain rfl : k = k' := Nat.cast_injective hsame
  rcases Nat.eq_zero_or_pos k with rfl | hk
  · rw [hzero, hzero]
  · have hpos : (0 : ℚ) < k := Nat.cast_pos.2 hk
    have hsign : negative = negative' := by
      cases negative <;> cases negative' <;> first | rfl | (simp at h; linarith)
    rw [hsign]

/-- The text of a finite float with two places is a numeral. -/
theorem exists_numeral {x : Float} (h : x.isFinite = true) :
    ∃ n : Numeral, n.chars = (fixed 2 x).toList ∧ n.fraction.length = 2 := by
  obtain ⟨negative, k, hfixed⟩ := Floating.exists_fixed h 2
  obtain ⟨n, hchars, hlength, -⟩ := Numeral.exists_placed negative k (Nat.succ_pos 1)
  exact ⟨n, hchars.trans hfixed.symm, hlength⟩

/-- Finite floats are printed alike if their texts with two places are of one number. -/
theorem text_eq_iff {x y : Float} (hx : x.isFinite = true) (hy : y.isFinite = true) :
    text x = text y ↔ valueOf? (fixed 2 x).toList = valueOf? (fixed 2 y).toList := by
  have hvalue : ∀ {z : Float}, z.isFinite = true →
      valueOf? (compact (fixed 2 z).toList) = valueOf? (fixed 2 z).toList := by
    intro z hz
    obtain ⟨n, hchars, hlength⟩ := exists_numeral hz
    rw [← hchars]
    exact valueOf?_compact n (List.ne_nil_of_length_pos (by omega))
  constructor
  · intro h
    have hcompact : compact (fixed 2 x).toList = compact (fixed 2 y).toList := String.ofList_inj.1 h
    rw [← hvalue hx, ← hvalue hy, hcompact]
  · intro h
    obtain ⟨negative, k, hfixed⟩ := Floating.exists_fixed hx 2
    obtain ⟨negative', k', hfixed'⟩ := Floating.exists_fixed hy 2
    rw [hfixed, hfixed'] at h
    show String.ofList (compact (fixed 2 x).toList) = String.ofList (compact (fixed 2 y).toList)
    rw [hfixed, hfixed', compact_placed_congr h]

end Coordinate

end QueueBoard
