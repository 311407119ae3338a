import QueueBoard.Decimal.Reading
import QueueBoard.Decimal.Style
/-!
# Digits and characters of numbers

The digits of a whole number have no zero before them and write that number (`head_toDigits`, `digitsOnto_toDigits`).
Digits, a point and signs are all that numbers are written with, besides the names of those that have no digits
(`Style.isMark_of_mem_text`).
-/

namespace QueueBoard.Decimal

variable {n : Nat} {digits : List Char}

/-! ## Digits -/

/-- The digits of a number have no zero before them. -/
theorem head_toDigits (h : 0 < n) : ∀ c ∈ (Nat.toDigits 10 n).head?, c ≠ '0' := by
  induction n using Nat.strongRecOn with
  | ind n ih =>
    by_cases hn : n < 10
    · rw [Nat.toDigits_of_lt_base hn]
      have hdigit : ∀ n < 10, 0 < n → n.digitChar ≠ '0' := by decide
      simpa using hdigit n hn h
    · obtain ⟨d, ds, hds⟩ := List.exists_cons_of_ne_nil (Nat.toDigits_ne_nil (n := n / 10) (b := 10))
      have hfirst := ih (n / 10) (by omega) (by omega)
      rw [hds] at hfirst
      rw [Nat.toDigits_of_base_le (by decide) (by omega), hds]
      exact hfirst

theorem digitsOnto_toDigits (n : Nat) : digitsOnto 0 (Nat.toDigits 10 n) = n := by
  have hfold : ∀ (ds : List Char) (m : Nat), digitsOnto m ds = Nat.ofDigitChars 10 ds m := by
    intro ds
    induction ds with
    | nil => exact fun _ => rfl
    | cons d ds ih =>
      intro m
      rw [Nat.ofDigitChars_cons, ← ih, Nat.mul_comm]
      rfl
  rw [hfold, Nat.ofDigitChars_ten_toDigits]

/-- The sign before digits. -/
theorem takeSign_digits (h : ∀ c ∈ digits.head?, c.isDigit = true) (negative : Bool) :
    takeSign ((if negative then ['-'] else []) ++ digits) = (negative, digits) := by
  cases negative with
  | true => rfl
  | false =>
    show takeSign digits = _
    rw [takeSign.eq_def]
    split
    · exact absurd (h _ rfl) (by decide)
    · exact absurd (h _ rfl) (by decide)
    · rfl

/-! ## Characters -/

/-- Whether numbers are written with a character: letters make up the names of those that have no digits. -/
def isMark (c : Char) : Bool := c.isAlphanum || c == '.' || c == '-' || c == '+'

theorem isMark_of_isDigit {c : Char} (h : c.isDigit = true) : isMark c = true := by
  simp [isMark, Char.isAlphanum, h]

theorem isMark_of_mem_toDigits {n : Nat} {c : Char} (h : c ∈ Nat.toDigits 10 n) : isMark c = true :=
  isMark_of_isDigit (Nat.isDigit_of_mem_toDigits (by decide) (by decide) h)

theorem mem_placed {n places : Nat} {c : Char} (h : c ∈ (placed n places).toList) : c.isDigit = true ∨ c = '.' := by
  have hdigits : ∀ k : Nat, ∀ c ∈ List.replicate k '0' ++ Nat.toDigits 10 n, c.isDigit = true := by
    intro k c hc
    rcases List.mem_append.1 hc with hc | hc
    · rw [List.eq_of_mem_replicate hc]; decide
    · exact Nat.isDigit_of_mem_toDigits (by omega) (by omega) hc
  rw [placed] at h
  split at h
  · exact Or.inl (hdigits _ c (by simpa using h))
  · simp only [String.toList_ofList, List.mem_append, List.mem_cons] at h
    rcases h with h | rfl | h
    · exact Or.inl (hdigits _ c (by simpa using List.mem_of_mem_take h))
    · exact Or.inr rfl
    · exact Or.inl (hdigits _ c (by simpa using List.mem_of_mem_drop h))

theorem isMark_of_mem_positionalText {keepPoint : Bool} {s : Scientific} {c : Char}
    (h : c ∈ (positionalText keepPoint s).toList) : isMark c = true := by
  have hwhole : ∀ c ∈ (natText s.digits ++ String.ofList (List.replicate s.exponent.toNat '0')).toList,
      isMark c = true := by
    intro c hc
    rw [String.toList_append, natText, String.toList_ofList, String.toList_ofList, List.mem_append] at hc
    rcases hc with hc | hc
    · exact isMark_of_mem_toDigits hc
    · rw [List.eq_of_mem_replicate hc]
      rfl
  rw [positionalText] at h
  split at h
  · rcases mem_placed h with hdigit | rfl
    · exact isMark_of_isDigit hdigit
    · rfl
  · dsimp only at h
    split at h
    · rw [String.toList_append, List.mem_append] at h
      rcases h with h | h
      · exact hwhole c h
      · exact List.all_eq_true.1 (show ".0".toList.all isMark = true by decide) c h
    · exact hwhole c h

theorem isMark_of_mem_exponentText {plusExponent : Bool} {s : Scientific} {c : Char}
    (h : c ∈ (exponentText plusExponent s).toList) : isMark c = true := by
  have hdigits : ∀ c ∈ Nat.toDigits 10 s.digits, isMark c = true := fun c hc => isMark_of_mem_toDigits hc
  simp only [exponentText, natText, String.toList_append, String.toList_ofList, List.mem_append] at h
  rcases h with ((h | h) | h) | h
  · generalize Nat.toDigits 10 s.digits = digits at h hdigits
    split at h
    · rcases List.mem_cons.1 h with rfl | h
      · exact hdigits _ (.head _)
      · rcases List.mem_cons.1 h with rfl | h
        · rfl
        · exact hdigits c (.tail _ h)
    · exact hdigits c h
  · exact List.all_eq_true.1 (show "e".toList.all isMark = true by decide) c h
  · split at h
    · exact List.all_eq_true.1 (show "-".toList.all isMark = true by decide) c h
    · split at h
      · exact List.all_eq_true.1 (show "+".toList.all isMark = true by decide) c h
      · cases h
  · exact isMark_of_mem_toDigits h

theorem Style.isMark_of_mem_magnitude {style : Style} {s : Scientific} {c : Char}
    (h : c ∈ (style.magnitude s).toList) : isMark c = true := by
  rw [Style.magnitude] at h
  split at h
  · exact isMark_of_mem_positionalText h
  · split at h
    · exact isMark_of_mem_positionalText h
    · exact isMark_of_mem_exponentText h

/-- A number is written with these characters if the names of those that have no digits are. -/
theorem Style.isMark_of_mem_text {style : Style} (hnan : style.nan.toList.all isMark = true)
    (hinfinity : style.infinity.toList.all isMark = true) {x : Float} {c : Char}
    (h : c ∈ (style.text x).toList) : isMark c = true := by
  have hsign : ∀ negative : Bool, ∀ c ∈ (if negative then "-" else "").toList, isMark c = true := by
    intro negative c hc
    cases negative with
    | true => exact List.all_eq_true.1 (show "-".toList.all isMark = true by decide) c hc
    | false => cases hc
  rw [Style.text, Style.write.eq_def] at h
  split at h
  · exact List.all_eq_true.1 hnan c h
  · rw [String.toList_append, List.mem_append] at h
    rcases h with h | h
    · exact hsign _ c h
    · exact List.all_eq_true.1 hinfinity c h
  · rw [String.toList_append, List.mem_append] at h
    rcases h with h | h
    · exact hsign _ c h
    · split at h
      · split at h
        · exact List.all_eq_true.1 (show "0.0".toList.all isMark = true by decide) c h
        · exact List.all_eq_true.1 (show "0".toList.all isMark = true by decide) c h
      · exact isMark_of_mem_magnitude h

end QueueBoard.Decimal
