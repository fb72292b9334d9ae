import PicBoard.Media.Image
import PicBoard.Media.Packing

/-!
# GIF pictures

A picture of at most 256 colours, of which one may be transparent.  A picture with more is written
in 256 colours that lie evenly.
-/

namespace PicBoard.Gif

open Bytes (little)

/-- The longest side. -/
def longestSide : Nat := 65535

/-- The most colours. -/
def paletteSize : Nat := 256

/-- A picture by the numbers of its colours. -/
structure Indexed where
  palette : List Pixel
  transparent : Option Nat
  indices : List Nat

/-- A pixel covers all or nothing. -/
def harden (p : Pixel) : Pixel := if p.alpha = 0 then p else { p with alpha := 255 }

/-- A number by which pixels are sorted. -/
def key (p : Pixel) : Nat :=
  ((p.red.toNat * 256 + p.green.toNat) * 256 + p.blue.toNat) * 256 + p.alpha.toNat

/-- The different pixels, sorted. -/
def distinct (pixels : List Pixel) : List Pixel :=
  (pixels.mergeSort fun p q => key p ≤ key q).eraseReps

/-- The number of a pixel among the even colours: three bits of red, three of green, two of
blue. -/
def evenIndex (p : Pixel) : Nat := p.red.toNat / 32 * 32 + p.green.toNat / 32 * 4 + p.blue.toNat / 64

/-- The even colour of a number. -/
def evenColor (n : Nat) : Pixel where
  red := UInt8.ofNat (n / 32 * 36)
  green := UInt8.ofNat (n / 4 % 8 * 36)
  blue := UInt8.ofNat (n % 4 * 85)
  alpha := 255

/-- A picture by the numbers of its colours.  Of the transparent pixels the last names the colour
that is transparent. -/
def Indexed.ofImage (i : Image) : Indexed :=
  let pixels := i.pixels.map harden
  let colors := distinct pixels
  let palette := if colors.length ≤ paletteSize then colors else (List.range paletteSize).map evenColor
  let index (p : Pixel) : Nat :=
    if colors.length ≤ paletteSize then colors.idxOf p else evenIndex p
  { palette
    transparent := (pixels.reverse.find? fun p => p.alpha = 0).map index
    indices := pixels.map index }

/-- The bits of a number of a colour. -/
def indexBits : Nat := 8

/-- How many numbers are written between two clearings, so that words keep their nine bits. -/
def run : Nat := 254

/-- The bits of the numbers: a word that clears the table of words before every run, a word for
each number, and a word that ends them. -/
def codeBits (indices : List Nat) : List Bool :=
  ((Packing.pieces run indices).flatMap fun piece =>
    Packing.lowFirst 9 256 ++ piece.flatMap (Packing.lowFirst 9)) ++ Packing.lowFirst 9 257

/-- Bytes in blocks that say how long they are, up to an empty one. -/
def blocks (b : Bytes) : Bytes :=
  ((Packing.pieces 255 b).flatMap fun piece => UInt8.ofNat piece.length :: piece) ++ [0]

/-- The table of colours, filled up. -/
def colorTable (palette : List Pixel) : Bytes :=
  (palette.flatMap fun p => [p.red, p.green, p.blue]) ++
    List.replicate (3 * (paletteSize - palette.length)) 0

/-- Writes a picture, unless it is too large. -/
def encode? (i : Image) : Option Bytes :=
  if longestSide < i.width ∨ longestSide < i.height then none
  else
    let indexed := Indexed.ofImage i
    let size := little 2 i.width ++ little 2 i.height
    let control : Bytes :=
      [0x21, 0xf9, 4, if indexed.transparent.isSome then 1 else 0, 0, 0,
        UInt8.ofNat (indexed.transparent.getD 0), 0]
    some <|
      Bytes.ofText "GIF89a" ++ size ++ [0xf7, 0, 0] ++ colorTable indexed.palette ++ control ++
        0x2c :: List.replicate 4 0 ++ size ++ [0, UInt8.ofNat indexBits] ++
        blocks (Packing.packLow (codeBits indexed.indices)) ++ [0x3b]

end PicBoard.Gif
