import QueueBoard.Color
/-!
# Hexadecimal texts of colors

A color is read from six characters after an optional `#`, two for each channel. Two hexadecimal digits are a
channel, and so is one digit after a plus sign (`Rgb.ofHex?_grammar`). The text that is written of a color has
digits alone and is read as that color.
-/

namespace QueueBoard.Rgb

variable {c high low : Char} {n : Nat} {value : UInt8} {text : String} {characters : List Char} {color : Rgb}

/-! ## Digits -/

/-- A digit and its value: the place among the sixteen digits, whose letters are all small or all capital. -/
def Digit (c : Char) (n : Nat) : Prop :=
  "0123456789abcdef".toList[n]? = some c ∨ "0123456789ABCDEF".toList[n]? = some c

instance : Decidable (Digit c n) := inferInstanceAs (Decidable (_ ∨ _))

theorem Digit.lt (h : Digit c n) : n < 16 := by
  rcases h with h | h <;> exact (List.getElem?_eq_some_iff.1 h).1

theorem Digit.ne_plus (h : Digit c n) : c ≠ '+' := by
  rintro rfl
  have hnone : ∀ n < 16, ¬ Digit '+' n := by decide
  exact hnone n h.lt h

/-- A character of a range by its place in the range. -/
theorem eq_ofNat_of_range {first last : Char} (h : first ≤ c ∧ c ≤ last) :
    ∃ k < last.toNat - first.toNat + 1, c.toNat - first.toNat = k ∧ c = Char.ofNat (first.toNat + k) := by
  obtain ⟨hfirst, hlast⟩ := h
  have hfirst : first.toNat ≤ c.toNat := hfirst
  have hlast : c.toNat ≤ last.toNat := hlast
  refine ⟨c.toNat - first.toNat, by omega, rfl, ?_⟩
  rw [Nat.add_sub_cancel' hfirst, Char.ofNat_toNat]

theorem digit_of_hexValue? (h : Text.hexValue? c = some n) : Digit c n := by
  rw [Text.hexValue?] at h
  split at h
  · rename_i hrange
    obtain ⟨k, hk, hplace, rfl⟩ := eq_ofNat_of_range hrange
    rw [hplace] at h
    cases h
    have hall : ∀ k < '9'.toNat - '0'.toNat + 1, Digit (Char.ofNat ('0'.toNat + k)) k := by decide
    exact hall n hk
  split at h
  · rename_i hrange
    obtain ⟨k, hk, hplace, rfl⟩ := eq_ofNat_of_range hrange
    rw [hplace] at h
    cases h
    have hall : ∀ k < 'f'.toNat - 'a'.toNat + 1, Digit (Char.ofNat ('a'.toNat + k)) (k + 10) := by decide
    exact hall k hk
  split at h
  · rename_i hrange
    obtain ⟨k, hk, hplace, rfl⟩ := eq_ofNat_of_range hrange
    rw [hplace] at h
    cases h
    have hall : ∀ k < 'F'.toNat - 'A'.toNat + 1, Digit (Char.ofNat ('A'.toNat + k)) (k + 10) := by decide
    exact hall k hk
  · cases h

theorem Digit.hexValue? (h : Digit c n) : Text.hexValue? c = some n := by
  have hsmall : ∀ n : Fin 16, Text.hexValue? ("0123456789abcdef".toList[n]) = some n.val := by decide
  have hcapital : ∀ n : Fin 16, Text.hexValue? ("0123456789ABCDEF".toList[n]) = some n.val := by decide
  rcases h with h | h <;> obtain ⟨hn, rfl⟩ := List.getElem?_eq_some_iff.1 h
  · exact hsmall ⟨n, hn⟩
  · exact hcapital ⟨n, hn⟩

theorem hexValue?_eq_some_iff : Text.hexValue? c = some n ↔ Digit c n := ⟨digit_of_hexValue?, Digit.hexValue?⟩

/-! ## Channels -/

/-- A channel of two digits. -/
def TwoDigits (high low : Char) (value : UInt8) : Prop :=
  ∃ h l, Digit high h ∧ Digit low l ∧ value.toNat = 16 * h + l

/-- A channel of two digits, or of one digit after a plus sign. -/
def MaybeSigned (high low : Char) (value : UInt8) : Prop :=
  TwoDigits high low value ∨ high = '+' ∧ Digit low value.toNat

theorem channel?_eq_some_iff : channel? high low = some value ↔ MaybeSigned high low value := by
  have hvalue : ∀ h l, h < 16 → l < 16 → (UInt8.ofNat (16 * h + l) = value ↔ value.toNat = 16 * h + l) := by
    intro h l hh hl
    rw [← UInt8.toNat_inj, UInt8.toNat_ofNat', Nat.mod_eq_of_lt (by omega), eq_comm]
  have hbind : channel? high low = some value ↔ ∃ h, (if high = '+' then some 0 else Text.hexValue? high) = some h ∧
      ∃ l, Digit low l ∧ UInt8.ofNat (16 * h + l) = value := by
    rw [channel?]
    split <;> simp only [Option.bind_eq_bind, Option.bind_eq_some_iff, hexValue?_eq_some_iff, Option.pure_def,
      Option.some.injEq]
  rw [hbind]
  by_cases hplus : high = '+'
  · rw [if_pos hplus]
    constructor
    · rintro ⟨h, hh, l, hl, hsum⟩
      cases hh
      rw [hvalue 0 l (by omega) hl.lt, Nat.mul_zero, Nat.zero_add] at hsum
      exact .inr ⟨hplus, hsum ▸ hl⟩
    · rintro (⟨h, l, hh, -⟩ | ⟨-, hl⟩)
      · exact absurd hplus hh.ne_plus
      · exact ⟨0, rfl, _, hl, (hvalue 0 _ (by omega) hl.lt).2 (by omega)⟩
  · rw [if_neg hplus]
    constructor
    · rintro ⟨h, hh, l, hl, hsum⟩
      have hh := hexValue?_eq_some_iff.1 hh
      exact .inl ⟨h, l, hh, hl, (hvalue h l hh.lt hl.lt).1 hsum⟩
    · rintro (⟨h, l, hh, hl, hsum⟩ | ⟨hsign, -⟩)
      · exact ⟨h, hh.hexValue?, l, hl, (hvalue h l hh.lt hl.lt).2 hsum⟩
      · exact absurd hsign hplus

/-- Two digits are what is left of the channels without a sign. -/
theorem twoDigits_iff : TwoDigits high low value ↔ MaybeSigned high low value ∧ high ≠ '+' ∧ low ≠ '+' := by
  constructor
  · rintro ⟨h, l, hh, hl, hsum⟩
    exact ⟨.inl ⟨h, l, hh, hl, hsum⟩, hh.ne_plus, hl.ne_plus⟩
  · rintro ⟨hdigits | ⟨hsign, -⟩, hhigh, -⟩
    · exact hdigits
    · exact absurd hsign hhigh

theorem twoDigits_channelText (value : UInt8) :
    ∃ high low, channelText value = [high, low] ∧ TwoDigits high low value := by
  have hdigit : ∀ n < 16, Digit (Nat.digitChar n) n := by decide
  have hvalue := value.toNat_lt
  exact ⟨_, _, rfl, value.toNat / 16, value.toNat % 16, hdigit _ (by omega), hdigit _ (by omega), by omega⟩

/-! ## Texts -/

/-- Six characters, two for each channel in a way of writing channels. -/
def Written (channel : Char → Char → UInt8 → Prop) (characters : List Char) (color : Rgb) : Prop :=
  ∃ a b c d e f, characters = [a, b, c, d, e, f] ∧
    channel a b color.red ∧ channel c d color.green ∧ channel e f color.blue

/-- The characters of a color after an optional `#`. -/
def Spelled (channel : Char → Char → UInt8 → Prop) (text : String) (color : Rgb) : Prop :=
  ∃ characters, (text.toList = characters ∨ text.toList = '#' :: characters) ∧ Written channel characters color

/-- The characters that are read, without the mark in front of them. -/
def unmarked (text : String) : List Char :=
  match text.toList with
  | '#' :: rest => rest
  | all => all

/-- The color of six characters. -/
def ofPairs? : List Char → Option Rgb
  | [a, b, c, d, e, f] => do return ⟨← channel? a b, ← channel? c d, ← channel? e f⟩
  | _ => none

theorem ofHex?_eq_ofPairs? (text : String) : ofHex? text = ofPairs? (unmarked text) := rfl

/-- Six characters are read pair by pair. -/
theorem ofPairs?_eq_some_iff : ofPairs? characters = some color ↔ Written MaybeSigned characters color := by
  obtain ⟨red, green, blue⟩ := color
  rw [ofPairs?.eq_def]
  split
  · rename_i a b c d e f
    simp only [Option.bind_eq_bind, Option.bind_eq_some_iff, Option.pure_def, Option.some.injEq,
      channel?_eq_some_iff, Rgb.mk.injEq]
    constructor
    · rintro ⟨r, hred, g, hgreen, b', hblue, rfl, rfl, rfl⟩
      exact ⟨a, b, c, d, e, f, rfl, hred, hgreen, hblue⟩
    · rintro ⟨a', b', c', d', e', f', hsix, hred, hgreen, hblue⟩
      cases hsix
      exact ⟨red, hred, green, hgreen, blue, hblue, rfl, rfl, rfl⟩
  · rename_i hnot
    refine iff_of_false nofun ?_
    rintro ⟨a, b, c, d, e, f, hsix, -⟩
    exact hnot a b c d e f hsix

/-- No channel begins with the mark. -/
theorem Written.not_marked : ¬ Written MaybeSigned ('#' :: characters) color := by
  rintro ⟨a, b, c, d, e, f, hcharacters, hred, -⟩
  obtain ⟨rfl, -⟩ := List.cons.inj hcharacters
  rcases hred with ⟨h, l, hdigit, -⟩ | ⟨hsign, -⟩
  · have hnone : ∀ n < 16, ¬ Digit '#' n := by decide
    exact hnone h hdigit.lt hdigit
  · exact absurd hsign (by decide)

theorem ofHex?_eq_some_iff : ofHex? text = some color ↔ Spelled MaybeSigned text color := by
  rw [ofHex?_eq_ofPairs?, ofPairs?_eq_some_iff, unmarked]
  split
  · rename_i rest hmarked
    constructor
    · intro h
      exact ⟨rest, .inr hmarked, h⟩
    · rintro ⟨characters, hbare | hcharacters, h⟩
      · rw [← hbare, hmarked] at h
        exact absurd h Written.not_marked
      · rw [hmarked] at hcharacters
        exact (List.cons.inj hcharacters).2 ▸ h
  · rename_i hbare
    constructor
    · intro h
      exact ⟨_, .inl rfl, h⟩
    · rintro ⟨characters, hcharacters | hmarked, h⟩
      · exact hcharacters ▸ h
      · exact absurd hmarked (hbare characters)

/-- Without a plus sign there are digits alone. -/
theorem spelled_twoDigits_iff : Spelled TwoDigits text color ↔ Spelled MaybeSigned text color ∧ '+' ∉ text.toList := by
  have hwritten : ∀ characters, Written TwoDigits characters color ↔
      Written MaybeSigned characters color ∧ '+' ∉ characters := by
    intro characters
    constructor
    · rintro ⟨a, b, c, d, e, f, rfl, hred, hgreen, hblue⟩
      obtain ⟨hred, ha, hb⟩ := twoDigits_iff.1 hred
      obtain ⟨hgreen, hc, hd⟩ := twoDigits_iff.1 hgreen
      obtain ⟨hblue, he, hf⟩ := twoDigits_iff.1 hblue
      exact ⟨⟨a, b, c, d, e, f, rfl, hred, hgreen, hblue⟩, by simp [ha, hb, hc, hd, he, hf, eq_comm]⟩
    · rintro ⟨⟨a, b, c, d, e, f, rfl, hred, hgreen, hblue⟩, hplus⟩
      simp only [List.mem_cons, not_or] at hplus
      obtain ⟨ha, hb, hc, hd, he, hf, -⟩ := hplus
      exact ⟨a, b, c, d, e, f, rfl, twoDigits_iff.2 ⟨hred, Ne.symm ha, Ne.symm hb⟩,
        twoDigits_iff.2 ⟨hgreen, Ne.symm hc, Ne.symm hd⟩, twoDigits_iff.2 ⟨hblue, Ne.symm he, Ne.symm hf⟩⟩
  have hmark : ∀ characters, text.toList = characters ∨ text.toList = '#' :: characters →
      ('+' ∈ characters ↔ '+' ∈ text.toList) := by
    rintro characters (h | h) <;> simp [h]
  constructor
  · rintro ⟨characters, htext, h⟩
    obtain ⟨h, hplus⟩ := (hwritten characters).1 h
    exact ⟨⟨characters, htext, h⟩, mt (hmark characters htext).2 hplus⟩
  · rintro ⟨⟨characters, htext, h⟩, hplus⟩
    exact ⟨characters, htext, (hwritten characters).2 ⟨h, mt (hmark characters htext).1 hplus⟩⟩

theorem spelled_text (color : Rgb) : Spelled TwoDigits color.text color := by
  obtain ⟨a, b, hred, ha⟩ := twoDigits_channelText color.red
  obtain ⟨c, d, hgreen, hc⟩ := twoDigits_channelText color.green
  obtain ⟨e, f, hblue, he⟩ := twoDigits_channelText color.blue
  refine ⟨[a, b, c, d, e, f], .inr ?_, a, b, c, d, e, f, rfl, ha, hc, he⟩
  rw [Rgb.text, String.toList_ofList, hred, hgreen, hblue]
  rfl

/-- **Six hexadecimal digits are read as a color, and so are digits after plus signs.** A text is read as a color
just if, after an optional `#`, it has two characters for each channel, digits or a plus sign and a digit, which
have the value of the channel. Without a plus sign these are the texts of six digits; the text of a color is one
of them and is read as the color. -/
theorem ofHex?_grammar (text : String) (color : Rgb) :
    (ofHex? text = some color ↔ Spelled MaybeSigned text color) ∧
    (Spelled TwoDigits text color ↔ ofHex? text = some color ∧ '+' ∉ text.toList) ∧
    Spelled TwoDigits color.text color ∧ ofHex? color.text = some color := by
  refine ⟨ofHex?_eq_some_iff, ?_, spelled_text color, ?_⟩
  · rw [ofHex?_eq_some_iff, spelled_twoDigits_iff]
  · exact ofHex?_eq_some_iff.2 (spelled_twoDigits_iff.1 (spelled_text color)).1

/-- A sign in the place of a digit is read as if it were a zero. -/
theorem ofHex?_takes_sign :
    ofHex? "+f0000" = some ⟨15, 0, 0⟩ ∧ ¬ ∃ color, Spelled TwoDigits "+f0000" color := by
  refine ⟨by decide, ?_⟩
  rintro ⟨color, h⟩
  exact (spelled_twoDigits_iff.1 h).2 (by decide)

end QueueBoard.Rgb
