import QueueBoard.Text.Basic
/-!
# Colors

24-bit colors, their hexadecimal texts, and palettes. A chart series takes its color from a palette
by its position in the input, never by its label.
-/

namespace QueueBoard

/-- A 24-bit color. -/
structure Rgb where
  red : UInt8
  green : UInt8
  blue : UInt8
  deriving Repr, BEq, DecidableEq, Inhabited

namespace Rgb

open Text (hexValue?)

/-- A channel from its two characters: two digits, or one digit after a plus sign. -/
def channel? (high low : Char) : Option UInt8 := do
  let h ← if high = '+' then some 0 else hexValue? high
  let l ← hexValue? low
  return UInt8.ofNat (16 * h + l)

/-- Six hexadecimal digits after an optional `#`. -/
def ofHex? (text : String) : Option Rgb :=
  let digits :=
    match text.toList with
    | '#' :: rest => rest
    | all => all
  match digits with
  | [a, b, c, d, e, f] => do
    return ⟨← channel? a b, ← channel? c d, ← channel? e f⟩
  | _ => none

/-- Two lower-case hexadecimal digits. -/
def channelText (c : UInt8) : List Char :=
  [Nat.digitChar (c.toNat / 16), Nat.digitChar (c.toNat % 16)]

/-- The text `#rrggbb`. -/
def text (c : Rgb) : String :=
  String.ofList ('#' :: (channelText c.red ++ channelText c.green ++ channelText c.blue))

/-- Canvas background, also the fill of near-zero slices. -/
def background : Rgb := ⟨255, 255, 255⟩
/-- Lines of the background grid. -/
def grid : Rgb := ⟨245, 245, 245⟩
/-- Dashed rule between the tree and the charts. -/
def separator : Rgb := ⟨128, 128, 128⟩
/-- Outline of a chart. -/
def frame : Rgb := ⟨211, 211, 211⟩
/-- Outline of a near-zero slice beside slices that are not. -/
def neutral : Rgb := ⟨160, 160, 160⟩
/-- Lines between queues. -/
def connector : Rgb := ⟨176, 196, 222⟩
/-- Regular text. -/
def ink : Rgb := ⟨51, 51, 51⟩

end Rgb

/-- Colors in a fixed order; there is always a first one. -/
structure Palette where
  first : Rgb
  rest : List Rgb
  deriving Repr, BEq, DecidableEq

namespace Palette

/-- All colors in order. -/
def toList (p : Palette) : List Rgb := p.first :: p.rest

/-- The categorical scheme of ten colors. -/
def category : Palette :=
  ⟨⟨0x1f, 0x77, 0xb4⟩,
    [⟨0xff, 0x7f, 0x0e⟩, ⟨0x2c, 0xa0, 0x2c⟩, ⟨0xd6, 0x27, 0x28⟩, ⟨0x94, 0x67, 0xbd⟩,
      ⟨0x8c, 0x56, 0x4b⟩, ⟨0xe3, 0x77, 0xc2⟩, ⟨0x7f, 0x7f, 0x7f⟩, ⟨0xbc, 0xbd, 0x22⟩,
      ⟨0x17, 0xbe, 0xcf⟩]⟩

/-- The softer scheme of the queue dashboard. Its first three colors mark a queue of the tree as
plain, hovered and selected. -/
def queues : Palette :=
  ⟨⟨70, 130, 180⟩,
    [⟨255, 160, 122⟩, ⟨135, 206, 250⟩, ⟨221, 160, 221⟩, ⟨72, 209, 204⟩, ⟨127, 255, 212⟩,
      ⟨255, 105, 180⟩, ⟨240, 230, 140⟩, ⟨222, 184, 135⟩, ⟨255, 182, 193⟩, ⟨0, 191, 255⟩,
      ⟨144, 238, 144⟩, ⟨32, 178, 170⟩]⟩

/-- A palette of the given colors; without any it is the categorical scheme. -/
def ofList : List Rgb → Palette
  | [] => category
  | first :: rest => ⟨first, rest⟩

/-- Number of colors. -/
def size (p : Palette) : Nat := p.toList.length

/-- The color of a position; positions wrap around. -/
def color (p : Palette) (index : Nat) : Rgb := p.toList.getD (index % p.size) p.first

/-- The emphasis color. -/
def primary (p : Palette) : Rgb := p.color 0

end Palette

end QueueBoard
