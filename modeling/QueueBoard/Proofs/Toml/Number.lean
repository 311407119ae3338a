import QueueBoard.Proofs.Decimal.Digits
import QueueBoard.Proofs.Text.Splitting
import QueueBoard.Toml.Number
/-!
# TOML words read back

A word is read the same in front of anything that does not go on with it (`readWord_append`). Booleans and whole
numbers within the range of the format are read back (`readWord_boolean`, `readWord_integer`); that a float is
depends on its text (`ReadsBack`).
-/

namespace QueueBoard.Toml

open Decimal (head_toDigits takeSign_digits)
open Text (hexValue?)

variable {word rest digits : List Char} {v : Toml} {n : Nat}

/-! ## What follows a word -/

/-- A text that is read to its end, and not as a date, is a word. -/
theorem word_of_readWord (h : readWord word = some (v, [])) (hv : ∀ text, v ≠ .datetime text) :
    (∀ c ∈ word, isWordChar c = true) ∧ word? word = some v := by
  rw [readWord] at h
  dsimp only at h
  split at h
  · cases h
    exact absurd rfl (hv _)
  · obtain ⟨w, hw, h⟩ := Option.map_eq_some_iff.1 h
    rw [Prod.mk.injEq] at h
    obtain ⟨rfl, hdrop⟩ := h
    have hall := List.dropWhile_eq_nil_iff.1 hdrop
    rw [List.takeWhile_eq_self_iff.2 hall] at hw
    exact ⟨hall, hw⟩

/-- A word that is no date is read the same in front of anything that no word goes on with. -/
theorem readWord_append (h : readWord word = some (v, [])) (hv : ∀ text, v ≠ .datetime text)
    (hrest : ∀ c ∈ rest.head?, isWordChar c = false ∧ c ≠ ' ') : readWord (word ++ rest) = some (v, rest) := by
  obtain ⟨hall, hword⟩ := word_of_readWord h hv
  obtain ⟨htake, hdrop⟩ := Text.takeWhile_append hall fun c hc => (hrest c hc).1
  rw [readWord]
  dsimp only
  rw [htake, hdrop]
  split
  · rename_i joined
    split at joined
    · rename_i more heq
      exact absurd rfl (hrest ' ' rfl).2
    · cases joined
  · rw [hword]
    rfl

/-- The text of a float is read as that float. -/
def ReadsBack (x : Float) : Prop :=
  ∃ text, plainText (.float x) = some text ∧ readWord text.toList = some (.float x, [])

theorem readWord_boolean (b : Bool) : readWord (if b then "true" else "false").toList = some (.boolean b, []) := by
  cases b <;> rfl

/-! ## Whole numbers -/

theorem digits?_eq_some (h : ∀ c ∈ digits, c.isDigit = true) (hne : digits ≠ []) :
    digits? Char.isDigit digits = some digits := by
  induction digits with
  | nil => exact absurd rfl hne
  | cons c digits ih =>
    obtain ⟨hc, hdigits⟩ := List.forall_mem_cons.1 h
    cases digits with
    | nil => rw [digits?, if_pos hc]
    | cons d digits =>
      rw [digits?, if_pos hc, ih hdigits (List.cons_ne_nil _ _)]
      · rfl
      · simp
      · rintro rest heq
        cases heq
        exact absurd (hdigits '_' List.mem_cons_self) (by decide)

theorem natOfDigits_toDigits (n : Nat) : natOfDigits 10 (Nat.toDigits 10 n) = n := by
  have hfold : ∀ (ds : List Char) (m : Nat), (∀ c ∈ ds, c.isDigit = true) →
      ds.foldl (fun n d => 10 * n + (hexValue? d).getD 0) m = Nat.ofDigitChars 10 ds m := by
    intro ds
    induction ds with
    | nil => exact fun _ _ => rfl
    | cons d ds ih =>
      intro m hds
      obtain ⟨hd, hds⟩ := List.forall_mem_cons.1 hds
      have hvalue : hexValue? d = some (d.toNat - '0'.toNat) := by
        rw [Char.isDigit, Bool.and_eq_true, decide_eq_true_eq, decide_eq_true_eq] at hd
        rw [hexValue?, if_pos (show '0' ≤ d ∧ d ≤ '9' from hd)]
      rw [List.foldl_cons, hvalue, ih _ hds]
      rfl
  rw [natOfDigits, hfold _ _ fun c hc => Nat.isDigit_of_mem_toDigits (by decide) (by decide) hc,
    Nat.ofDigitChars_ten_toDigits]

theorem isDatetime_eq_false (hminus : '-' ∉ word.tail) (hcolon : ':' ∉ word) : isDatetime word = false := by
  have hdate : ∀ text : List Char, '-' ∉ text.tail → isDate text = false := by
    intro text htext
    rw [isDate.eq_def]
    split
    · simp at htext
    · rfl
  have htime : afterTime word ≠ some [] := by
    rw [afterTime.eq_def]
    split
    · simp at hcolon
    · simp
  have htake : '-' ∉ (word.take 10).tail := fun h => hminus ((List.take_sublist 10 word).tail.subset h)
  simp [isDatetime, hdate word hminus, hdate _ htake, htime]

section Digits

variable (hdigits : ∀ c ∈ digits, c.isDigit = true) (hne : digits ≠ []) (negative : Bool)
include hdigits

theorem not_mem_digits {c : Char} (hc : c.isDigit = false) : c ∉ digits := by
  intro hmem
  rw [hdigits c hmem] at hc
  cases hc

theorem not_mem_word {c : Char} (hc : c.isDigit = false) (hminus : c ≠ '-') :
    c ∉ (if negative then ['-'] else []) ++ digits := by
  have hmem := not_mem_digits hdigits hc
  cases negative <;> simp [hmem, hminus]

theorem isDatetime_digits : isDatetime ((if negative then ['-'] else []) ++ digits) = false := by
  have hminus : '-' ∉ digits := not_mem_digits hdigits (by decide)
  refine isDatetime_eq_false ?_ (not_mem_word hdigits negative (by decide) (by decide))
  cases negative with
  | true => exact hminus
  | false => exact fun h => hminus (List.mem_of_mem_tail h)

include hne

/-- A word of digits is no float. -/
theorem float?_digits : float? ((if negative then ['-'] else []) ++ digits) = none := by
  have hunsigned : unsignedFloat? digits = none := by
    have hdrop : digits.dropWhile (fun c => !(c == '.' || c == 'e' || c == 'E')) = [] := by
      refine List.dropWhile_eq_nil_iff.2 fun c hc => ?_
      have hpoint : c ≠ '.' := fun h => not_mem_digits hdigits (by decide : '.'.isDigit = false) (h ▸ hc)
      have hlower : c ≠ 'e' := fun h => not_mem_digits hdigits (by decide : 'e'.isDigit = false) (h ▸ hc)
      have hupper : c ≠ 'E' := fun h => not_mem_digits hdigits (by decide : 'E'.isDigit = false) (h ▸ hc)
      simp [hpoint, hlower, hupper]
    rw [unsignedFloat?]
    dsimp only
    rw [hdrop]
    cases whole? (digits.takeWhile fun c => !(c == '.' || c == 'e' || c == 'E')) <;> rfl
  rw [float?, takeSign_digits (fun c hc => hdigits c (List.mem_of_mem_head? hc)) negative]
  dsimp only
  rw [if_neg, if_neg, hunsigned]
  · rw [beq_iff_eq]
    rintro rfl
    exact not_mem_digits hdigits (by decide : 'n'.isDigit = false) List.mem_cons_self
  · rw [beq_iff_eq]
    rintro rfl
    exact not_mem_digits hdigits (by decide : 'i'.isDigit = false) List.mem_cons_self

end Digits

theorem whole?_toDigits (n : Nat) : whole? (Nat.toDigits 10 n) = some (Nat.toDigits 10 n) := by
  have hread : digits? Char.isDigit (Nat.toDigits 10 n) = some (Nat.toDigits 10 n) :=
    digits?_eq_some (fun c hc => Nat.isDigit_of_mem_toDigits (by decide) (by decide) hc) Nat.toDigits_ne_nil
  rw [whole?, hread]
  dsimp only [bind, Option.bind]
  split
  · rename_i d ds hzero
    rcases Nat.eq_zero_or_pos n with rfl | hn
    · cases hzero
    · exact absurd rfl (head_toDigits hn '0' (by rw [hzero]; rfl))
  · rfl

/-- The word of a whole number in range is read as that number. -/
theorem word?_integer {negative : Bool} {n : Nat} (h : fits (if negative then -(n : Int) else n) = true) :
    word? ((if negative then ['-'] else []) ++ Nat.toDigits 10 n) =
      some (.integer (if negative then -(n : Int) else n)) := by
  have hdigits : ∀ c ∈ Nat.toDigits 10 n, c.isDigit = true :=
    fun c hc => Nat.isDigit_of_mem_toDigits (by decide) (by decide) hc
  have hletter : ∀ c : Char, c.isDigit = false → c ≠ '-' → ∀ front rest,
      (if negative then ['-'] else []) ++ Nat.toDigits 10 n ≠ front ++ c :: rest := by
    intro c hc hminus front rest heq
    refine not_mem_word hdigits negative hc hminus ?_
    rw [heq]
    simp
  have hinteger : integer? ((if negative then ['-'] else []) ++ Nat.toDigits 10 n) =
      some (if negative then -(n : Int) else n) := by
    rw [integer?, takeSign_digits (fun c hc => hdigits c (List.mem_of_mem_head? hc)) negative]
    · dsimp only
      rw [whole?_toDigits, Option.bind_some, natOfDigits_toDigits, inRange, if_pos h]
    · exact hletter 'x' (by decide) (by decide) ['0']
    · exact hletter 'o' (by decide) (by decide) ['0']
    · exact hletter 'b' (by decide) (by decide) ['0']
  rw [word?, if_neg, if_neg, isDatetime_digits hdigits, if_neg Bool.false_ne_true,
    float?_digits hdigits Nat.toDigits_ne_nil, hinteger]
  · rfl
  · exact beq_iff_eq.not.2 (hletter 'f' (by decide) (by decide) [] _)
  · exact beq_iff_eq.not.2 (hletter 't' (by decide) (by decide) [] _)

/-- **A whole number in range is read back.** -/
theorem readWord_integer {n : Int} (h : fits n = true) : readWord (toString n).toList = some (.integer n, []) := by
  obtain ⟨negative, m, hn, htext⟩ : ∃ (negative : Bool) (m : Nat), n = (if negative then -(m : Int) else m) ∧
      (toString n).toList = (if negative then ['-'] else []) ++ Nat.toDigits 10 m := by
    cases n with
    | ofNat m => exact ⟨false, m, rfl, by simp [toString, Int.repr, Nat.repr]⟩
    | negSucc m => exact ⟨true, m + 1, rfl, by simp [toString, Int.repr, Nat.repr]⟩
  have hall : ∀ c ∈ (if negative then ['-'] else []) ++ Nat.toDigits 10 m, isWordChar c = true := by
    intro c hc
    have hcases : c = '-' ∨ c ∈ Nat.toDigits 10 m := by
      cases negative with
      | true => exact List.mem_cons.1 hc
      | false => exact .inr hc
    rcases hcases with rfl | hc
    · decide
    · have hdigit : c.isDigit = true := Nat.isDigit_of_mem_toDigits (by decide) (by decide) hc
      simp [isWordChar, Char.isAlphanum, hdigit]
  subst hn
  rw [htext, readWord]
  dsimp only
  rw [List.takeWhile_eq_self_iff.2 hall, List.dropWhile_eq_nil_iff.2 hall, word?_integer h]
  rfl

end QueueBoard.Toml
